import Dialogue.Proofs.Revisions
import Dialogue.Proofs.Trail
/-!
Runs of a traversal. Between two calls anything but the traversal itself may change: the graph, the
operations, the board and the host. Where the traversal stands is still explained by the latest call that
came back, and once it is at its end nothing runs until it begins again.
-/
namespace Dialogue

variable {σ : Type}

/-- A call of a run, and what it is made on. -/
structure Occasion (σ : Type) where
  graph : Graph
  registry : Registry σ
  scene : Scene σ
  call : Traversal.Call

structure Exchange (σ : Type) where
  occasion : Occasion σ
  turn : Turn σ

def Occasion.exchange (occasion : Occasion σ) (traversal : Traversal) : Exchange σ :=
  ⟨occasion, occasion.call.perform occasion.graph occasion.registry traversal occasion.scene⟩

namespace Exchange

def Closes (exchange : Exchange σ) : Prop :=
  (∃ events, exchange.turn.outcome = some (.done ⟨.ended, events⟩)) ∨
    (∃ node hops, exchange.turn.outcome = some (.failed (.cycleDetected node hops))) ∨
    ∃ node error, exchange.turn.outcome = some (.failed (.call node error))

/-- The call selected the node: by beginning there, or by presenting what carries this id. Where nodes are
filed under the ids they carry, that is the node found under it. -/
def Selects (exchange : Exchange σ) (id : NodeId) : Prop :=
  (exchange.occasion.call = .begin ∧ exchange.occasion.graph.start? = some id) ∨
    ∃ pin events key node, exchange.occasion.call = .advance pin ∧
      exchange.turn.outcome = some (.done ⟨.presented id, events⟩) ∧
      exchange.occasion.graph.node? key = some node ∧ node.kind.isPresentable = true ∧
      node.id = id ∧ (exchange.occasion.graph.IsFiled → key = id)

end Exchange

namespace Traversal

structure Course (σ : Type) where
  traversal : Traversal
  log : List (Exchange σ)

namespace Course

def follow (course : Course σ) (occasion : Occasion σ) : Course σ :=
  let exchange := occasion.exchange course.traversal
  ⟨exchange.turn.traversal, exchange :: course.log⟩

def of (config : Config) (occasions : List (Occasion σ)) : Course σ :=
  occasions.foldl follow ⟨.new config, []⟩

def latest? (course : Course σ) : Option (Exchange σ) :=
  course.log.find? fun exchange => exchange.turn.outcome ≠ some .crashed

def rest (course : Course σ) (answer : Outcome TraversalError Advance)
    (occasions : List (Occasion σ)) : Course σ :=
  ⟨course.traversal, (occasions.map fun occasion =>
    ⟨occasion, ⟨course.traversal, occasion.scene, some answer⟩⟩).reverse ++ course.log⟩

/-- The calls so far explain where the traversal stands. -/
structure Explained (course : Course σ) : Prop where
  idle_iff : course.traversal.position = .idle ↔
    ∀ exchange ∈ course.log, exchange.occasion.call ≠ .begin
  begun : ∀ exchange ∈ course.log, exchange.occasion.call = .begin →
    exchange.turn.traversal.position =
      (exchange.occasion.graph.start?.map Position.atNode).getD .ended
  closed : ∀ exchange ∈ course.log, exchange.Closes → exchange.turn.traversal.position = .ended
  standing : ∀ id, course.traversal.position = .atNode id →
    ∃ exchange, course.latest? = some exchange ∧ exchange.Selects id

/-- They also tell what further advances come to, unless the traversal stands at a node. -/
structure Orderly (course : Course σ) : Prop extends Explained course where
  /-- Before the first beginning every advance is refused. -/
  idle_rests : course.traversal.position = .idle → ∀ advances : List (Occasion σ),
    (∀ occasion ∈ advances, occasion.call ≠ .begin) →
      advances.foldl follow course = course.rest (.failed .notStarted) advances
  /-- At the end every advance finds the end again, until the next beginning. -/
  ended_rests : course.traversal.position = .ended → ∀ advances : List (Occasion σ),
    (∀ occasion ∈ advances, occasion.call ≠ .begin) →
      advances.foldl follow course = course.rest (.done ⟨.ended, []⟩) advances

end Course

end Traversal

theorem begin_position (traversal : Traversal) (graph : Graph) :
    (traversal.begin graph).position = (graph.start?.map Position.atNode).getD .ended := by
  unfold Traversal.begin
  cases graph.start? <;> rfl

theorem begin_not_idle (traversal : Traversal) (graph : Graph) :
    (traversal.begin graph).position ≠ .idle := by
  rw [begin_position]
  cases graph.start? <;> nofun

theorem begin_stands (traversal : Traversal) (graph : Graph) (id : NodeId)
    (stands : (traversal.begin graph).position = .atNode id) : graph.start? = some id := by
  rw [begin_position] at stands
  cases first : graph.start? with
  | none =>
      rw [first] at stands
      cases stands
  | some start =>
      rw [first] at stands
      cases stands
      rfl

section Advancing

variable (graph : Graph) (registry : Registry σ) (traversal : Traversal) (pin : Pin) (scene : Scene σ)

theorem advance_idle_iff :
    (traversal.advance graph registry pin scene).1.position = .idle ↔ traversal.position = .idle := by
  cases position : traversal.position with
  | idle => simp [Traversal.advance, position]
  | ended => simp [Traversal.advance, position]
  | atNode node =>
      have settles := advance_settles graph registry traversal pin scene
      generalize traversal.advance graph registry pin scene = result at settles ⊢
      obtain ⟨after, left, outcome⟩ := result
      cases settles with
      | presented => simp
      | ended => simp
      | notStarted idle => cases idle.symm.trans position
      | failed => simp
      | crashed => exact iff_of_false (by rw [position]; simp) (by simp)

theorem advance_closes
    (closes : Exchange.Closes (Occasion.exchange ⟨graph, registry, scene, .advance pin⟩ traversal)) :
    (traversal.advance graph registry pin scene).1.position = .ended := by
  have settles := advance_settles graph registry traversal pin scene
  simp only [Exchange.Closes, Occasion.exchange, Traversal.Call.perform] at closes
  generalize traversal.advance graph registry pin scene = result at settles closes ⊢
  obtain ⟨after, left, outcome⟩ := result
  cases settles with
  | presented => simp at closes
  | ended => rfl
  | notStarted => simp at closes
  | failed => rfl
  | crashed => simp at closes

/-- An advance comes to stand at a node by presenting it, or breaks down and stays where it stood. -/
theorem advance_stands (id : NodeId)
    (stands : (traversal.advance graph registry pin scene).1.position = .atNode id) :
    (∃ events key node, (traversal.advance graph registry pin scene).2.2 =
        .done ⟨.presented id, events⟩ ∧
      graph.node? key = some node ∧ node.kind.isPresentable = true ∧ node.id = id) ∨
    (traversal.advance graph registry pin scene).2.2 = .crashed ∧
      traversal.position = .atNode id := by
  have settles := advance_settles graph registry traversal pin scene
  generalize traversal.advance graph registry pin scene = result at settles stands ⊢
  obtain ⟨after, left, outcome⟩ := result
  cases settles with
  | presented stored shown =>
      cases stands
      exact Or.inl ⟨_, _, _, rfl, stored, shown, rfl⟩
  | ended => cases stands
  | notStarted idle => cases idle.symm.trans stands
  | failed => cases stands
  | crashed => exact Or.inr ⟨rfl, stands⟩

end Advancing

namespace Traversal.Course

theorem follow_resting (course : Course σ) (answer : Outcome TraversalError Advance)
    (rests : ∀ graph (registry : Registry σ) pin scene,
      course.traversal.advance graph registry pin scene = (course.traversal, scene, answer))
    (advances : List (Occasion σ)) (each : ∀ occasion ∈ advances, occasion.call ≠ .begin) :
    advances.foldl follow course = course.rest answer advances := by
  induction advances generalizing course with
  | nil => rfl
  | cons occasion later ih =>
      obtain ⟨graph, registry, scene, call⟩ := occasion
      cases call with
      | begin => exact absurd rfl (each _ List.mem_cons_self)
      | advance pin =>
          have stays : course.follow ⟨graph, registry, scene, .advance pin⟩ =
              course.rest answer [⟨graph, registry, scene, .advance pin⟩] := by
            simp [follow, rest, Occasion.exchange, Call.perform, rests]
          rw [List.foldl_cons, stays, ih (course.rest answer _) rests fun other member =>
            each other (List.mem_cons_of_mem _ member)]
          simp [rest]

theorem follow_begin (course : Course σ) (graph : Graph) (registry : Registry σ) (scene : Scene σ)
    (explained : Explained course) : Explained (course.follow ⟨graph, registry, scene, .begin⟩) where
  idle_iff := iff_of_false (begin_not_idle course.traversal graph) fun unbegun =>
    unbegun _ List.mem_cons_self rfl
  begun := List.forall_mem_cons.mpr
    ⟨fun _ => begin_position course.traversal graph, explained.begun⟩
  closed := List.forall_mem_cons.mpr
    ⟨by simp [Exchange.Closes, Occasion.exchange, Call.perform], explained.closed⟩
  standing id stands := by
    have selected := begin_stands course.traversal graph id stands
    exact ⟨Occasion.exchange ⟨graph, registry, scene, .begin⟩ course.traversal, rfl,
      Or.inl ⟨rfl, selected⟩⟩

theorem follow_advance (course : Course σ) (graph : Graph) (registry : Registry σ) (scene : Scene σ)
    (pin : Pin) (explained : Explained course) :
    Explained (course.follow ⟨graph, registry, scene, .advance pin⟩) where
  idle_iff := by
    have idle := advance_idle_iff graph registry course.traversal pin scene
    simpa [follow, Occasion.exchange, Call.perform] using idle.trans explained.idle_iff
  begun := List.forall_mem_cons.mpr ⟨nofun, explained.begun⟩
  closed := List.forall_mem_cons.mpr
    ⟨advance_closes graph registry course.traversal pin scene, explained.closed⟩
  standing id stands := by
    rcases advance_stands graph registry course.traversal pin scene id stands with
      ⟨events, key, node, presented, stored, shown, own⟩ | ⟨crashed, stood⟩
    · refine ⟨Occasion.exchange ⟨graph, registry, scene, .advance pin⟩ course.traversal, ?_,
        Or.inr ⟨pin, events, key, node, rfl, congrArg some presented, stored, shown, own,
          fun filed => (filed.id_eq stored).symm.trans own⟩⟩
      simp [latest?, follow, Occasion.exchange, Call.perform, presented]
    · obtain ⟨exchange, latest, selects⟩ := explained.standing id stood
      refine ⟨exchange, ?_, selects⟩
      simpa [latest?, follow, Occasion.exchange, Call.perform, crashed] using latest

theorem explained_of (config : Config) (occasions : List (Occasion σ)) :
    Explained (of config occasions) := by
  have new : Explained (⟨.new config, []⟩ : Course σ) :=
    ⟨by simp [Traversal.new], List.forall_mem_nil _, List.forall_mem_nil _, nofun⟩
  unfold of
  generalize (⟨.new config, []⟩ : Course σ) = course at new
  induction occasions generalizing course with
  | nil => exact new
  | cons occasion later ih =>
      obtain ⟨graph, registry, scene, begin | pin⟩ := occasion
      · exact ih _ (follow_begin course graph registry scene new)
      · exact ih _ (follow_advance course graph registry scene pin new)

/-- Whatever is called on a traversal, in any order and on whatever graphs. -/
theorem runs_orderly (config : Config) (occasions : List (Occasion σ)) :
    Orderly (of config occasions) where
  toExplained := explained_of config occasions
  idle_rests idle advances each := by
    refine follow_resting _ _ (fun graph registry pin scene => ?_) advances each
    simp only [Traversal.advance, idle]
  ended_rests ended advances each := by
    refine follow_resting _ _ (fun graph registry pin scene => ?_) advances each
    simp only [Traversal.advance, ended]

end Traversal.Course

end Dialogue

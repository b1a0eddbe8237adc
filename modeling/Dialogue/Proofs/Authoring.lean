import Dialogue.Proofs.KeyedLaws
import Dialogue.Storage.Asset
/-!
Authoring as a run of edits. An edit that is refused leaves the graph as it was. A node that is added gets
an id that no node has.
-/
namespace Dialogue

variable {σ : Type}

inductive Edit (σ : Type) where
  | addNode (node : Node)
  | removeNode (id : NodeId)
  | connect (connection : Connection)
  | link (node : NodeId) (pin : Pin) (target : NodeId)
  | disconnect (source : Endpoint)
  | addChoice (id : NodeId)
  | removeChoice (id : NodeId) (index : Nat)
  | setChoiceKey (id : NodeId) (index : Nat) (key : Option String)
  | addProperty (id : PropertyId) (name : String) (kind : Kind)
  | removeProperty (id : PropertyId)
  | renameProperty (id : PropertyId) (name : String)
  | setValue (id : PropertyId) (value : Value)
  | bindHandles (host : Host σ)
  /-- Saving the graph, and loading what was saved. -/
  | reload

/-- The graph after an edit. A node is added only while there is an id left after its own. -/
def Edit.perform (graph : Graph) : Edit σ → Graph
  | addNode node => if graph.freshId + 1 < idBound then (graph.addNode node).2 else graph
  | removeNode id => ((graph.removeNode id).map Prod.snd).getD graph
  | connect connection => (graph.connect connection).toOption.getD graph
  | link node pin target => (graph.link node pin target).toOption.getD graph
  | disconnect source => ((graph.disconnect source).map Prod.snd).getD graph
  | addChoice id => ((graph.addChoice id).toOption.map Prod.snd).getD graph
  | removeChoice id index => (graph.removeChoice id index).toOption.getD graph
  | setChoiceKey id index key => (graph.setChoiceKey id index key).toOption.getD graph
  | addProperty id name kind => ((graph.addProperty id name kind).toOption.map Prod.snd).getD graph
  | removeProperty id => ((graph.removeProperty id).map Prod.snd).getD graph
  | renameProperty id name => (graph.renameProperty id name).toOption.getD graph
  | setValue id value => (graph.setValue id value).toOption.getD graph
  | bindHandles host => (graph.bindHandles host).2
  | reload => ((Asset.ofText (Asset.new graph).toText).toOption.map Asset.graph).getD graph

namespace Edit

/-- The edits a graph accepts, and what they make of it. -/
inductive Accepted (graph : Graph) : Edit σ → Graph → Prop where
  | addNode {node : Node} (room : graph.freshId + 1 < idBound) :
      Accepted graph (.addNode node) (graph.addNode node).2
  | removeNode {id : NodeId} {node : Node} (stored : graph.node? id = some node) :
      Accepted graph (.removeNode id) { graph with
        nodes := graph.nodes.erase id
        connections := graph.connections.filter fun connection => !Graph.touches id connection }
  | connect {connection : Connection} (allowed : graph.objection? connection = none) :
      Accepted graph (.connect connection) (graph.push connection)
  | link {node : NodeId} {pin : Pin} {target : NodeId}
      (allowed : graph.objection? (.flow node pin target) = none) :
      Accepted graph (.link node pin target) (graph.push (.flow node pin target))
  | disconnect {source : Endpoint} : Accepted graph (.disconnect source) { graph with
      connections := graph.connections.eraseP fun connection => connection.source = source }
  | addChoice {id : NodeId} {answers : List (Option String)}
      (choice : graph.answers? id = .ok answers) :
      Accepted graph (.addChoice id) (graph.setContent id (.choice (answers ++ [none])))
  | removeChoice {id : NodeId} {index : Nat} {answers : List (Option String)}
      (choice : graph.answers? id = .ok answers) (within : index < answers.length) :
      Accepted graph (.removeChoice id index)
        { graph.setContent id (.choice (answers.eraseIdx index)) with
          connections := graph.connections.filterMap (Graph.shiftPin id index) }
  | setChoiceKey {id : NodeId} {index : Nat} {key : Option String} {answers : List (Option String)}
      (choice : graph.answers? id = .ok answers) :
      Accepted graph (.setChoiceKey id index key)
        (graph.setContent id (.choice (answers.set index key)))
  | addProperty {id : PropertyId} {name : String} {kind : Kind} {property : Property} {board : Board}
      (added : graph.board.add id name kind = .ok (property, board)) :
      Accepted graph (.addProperty id name kind) { graph with board := board }
  | removeProperty {id : PropertyId} {property : Property} {board : Board}
      (removed : graph.board.remove id = some (property, board)) :
      Accepted graph (.removeProperty id) { graph with board := board }
  | renameProperty {id : PropertyId} {name : String} {board : Board}
      (renamed : graph.board.rename id name = .ok board) :
      Accepted graph (.renameProperty id name) { graph with board := board }
  | setValue {id : PropertyId} {value : Value} {board : Board}
      (written : graph.board.setValue id value = .ok board) :
      Accepted graph (.setValue id value) { graph with board := board }
  | bindHandles {host : Host σ} :
      Accepted graph (.bindHandles host) (graph.mapValues host.rebindValue)
  | reload {asset : Asset} (loaded : Asset.ofText (Asset.new graph).toText = .ok asset) :
      Accepted graph .reload asset.graph

/-- An edit that is not accepted leaves the graph as it was. -/
theorem perform_cases (graph : Graph) (edit : Edit σ) :
    edit.perform graph = graph ∨ edit.Accepted graph (edit.perform graph) := by
  cases edit with
  | addNode node =>
      simp only [perform]
      split
      next room => exact Or.inr (.addNode room)
      · exact Or.inl rfl
  | removeNode id =>
      simp only [perform, Graph.removeNode]
      cases stored : graph.node? id with
      | none => exact Or.inl rfl
      | some node => exact Or.inr (.removeNode stored)
  | connect connection =>
      simp only [perform, Graph.connect]
      cases allowed : graph.objection? connection with
      | some error => exact Or.inl rfl
      | none => exact Or.inr (.connect allowed)
  | link node pin target =>
      simp only [perform, Graph.link, Graph.connect]
      cases allowed : graph.objection? (.flow node pin target) with
      | some error => exact Or.inl rfl
      | none => exact Or.inr (.link allowed)
  | disconnect source =>
      simp only [perform, Graph.disconnect]
      cases graph.connections.find? fun connection => connection.source = source with
      | none => exact Or.inl rfl
      | some found => exact Or.inr .disconnect
  | addChoice id =>
      simp only [perform, Graph.addChoice]
      cases choice : graph.answers? id with
      | error error => exact Or.inl rfl
      | ok answers => exact Or.inr (.addChoice choice)
  | removeChoice id index =>
      simp only [perform, Graph.removeChoice, bind, Except.bind]
      cases choice : graph.answers? id with
      | error error => exact Or.inl rfl
      | ok answers =>
          simp only
          split
          next within => exact Or.inr (.removeChoice choice within)
          · exact Or.inl rfl
  | setChoiceKey id index key =>
      simp only [perform, Graph.setChoiceKey, bind, Except.bind]
      cases choice : graph.answers? id with
      | error error => exact Or.inl rfl
      | ok answers =>
          simp only
          split
          · exact Or.inr (.setChoiceKey choice)
          · exact Or.inl rfl
  | addProperty id name kind =>
      simp only [perform, Graph.addProperty]
      cases added : graph.board.add id name kind with
      | error error => exact Or.inl rfl
      | ok result => exact Or.inr (.addProperty added)
  | removeProperty id =>
      simp only [perform, Graph.removeProperty]
      cases removed : graph.board.remove id with
      | none => exact Or.inl rfl
      | some result => exact Or.inr (.removeProperty removed)
  | renameProperty id name =>
      simp only [perform, Graph.renameProperty]
      cases renamed : graph.board.rename id name with
      | error error => exact Or.inl rfl
      | ok board => exact Or.inr (.renameProperty renamed)
  | setValue id value =>
      simp only [perform, Graph.setValue]
      cases written : graph.board.setValue id value with
      | error error => exact Or.inl rfl
      | ok board => exact Or.inr (.setValue written)
  | bindHandles host => exact Or.inr .bindHandles
  | reload =>
      simp only [perform]
      cases loaded : Asset.ofText (Asset.new graph).toText with
      | error error => exact Or.inl rfl
      | ok asset => exact Or.inr (.reload loaded)

end Edit

namespace Graph

def authored (table : String) (edits : List (Edit σ)) : Graph :=
  edits.foldl Edit.perform (new table)

/-- What no accepted edit breaks holds of every authored graph that begins with it. -/
theorem authored_invariant (holds : Graph → Prop) (table : String) (edits : List (Edit σ))
    (begins : holds (new table))
    (kept : ∀ graph after (edit : Edit σ), holds graph → edit.Accepted graph after → holds after) :
    holds (authored table edits) := by
  unfold authored
  generalize new table = graph at begins
  induction edits generalizing graph with
  | nil => exact begins
  | cons edit rest ih =>
      apply ih
      rcases edit.perform_cases graph with refused | accepted
      · rw [refused]
        exact begins
      · exact kept graph _ edit begins accepted

theorem firstFree_above (next : NodeId) (keys : List NodeId) (above : ∀ key ∈ keys, next < key) :
    firstFree next keys = next := by
  induction keys with
  | nil => rfl
  | cons key rest ih =>
      have different : key ≠ next := Nat.ne_of_gt (above key List.mem_cons_self)
      have onward := ih fun other member => above other (List.mem_cons_of_mem _ member)
      simpa [firstFree, different] using onward

theorem firstFree_fresh (next : NodeId) (keys : List NodeId)
    (ascending : keys.Pairwise (· < ·)) :
    next ≤ firstFree next keys ∧ firstFree next keys ∉ keys := by
  induction keys generalizing next with
  | nil => exact ⟨Nat.le_refl _, List.not_mem_nil⟩
  | cons key rest ih =>
      obtain ⟨above, tail⟩ := List.pairwise_cons.mp ascending
      rcases Nat.lt_trichotomy key next with below | same | beyond
      · have unchanged : firstFree next (key :: rest) = firstFree next rest := by
          simp [firstFree, Nat.ne_of_lt below]
        obtain ⟨reached, fresh⟩ := ih next tail
        rw [unchanged]
        refine ⟨reached, fun member => ?_⟩
        rcases List.mem_cons.mp member with hit | member
        · exact Nat.ne_of_gt (Nat.lt_of_lt_of_le below reached) hit
        · exact fresh member
      · subst same
        have moved : firstFree key (key :: rest) = firstFree (key + 1) rest := by
          simp [firstFree]
        obtain ⟨reached, fresh⟩ := ih (key + 1) tail
        rw [moved]
        refine ⟨Nat.le_of_succ_le reached, fun member => ?_⟩
        rcases List.mem_cons.mp member with hit | member
        · exact Nat.ne_of_gt reached hit
        · exact fresh member
      · -- The keys ascend, so no later one can be in the way.
        have past : ∀ other ∈ key :: rest, next < other := by
          intro other member
          rcases List.mem_cons.mp member with rfl | member
          · exact beyond
          · exact Nat.lt_trans beyond (above other member)
        rw [firstFree_above next _ past]
        exact ⟨Nat.le_refl _, fun member => Nat.lt_irrefl _ (past next member)⟩

theorem freshId_free (graph : Graph) :
    graph.nextId ≤ graph.freshId ∧ graph.freshId ∉ graph.nodes.keys := by
  have ascending : graph.nodes.keys.Pairwise (· < ·) :=
    List.pairwise_map.mpr (graph.nodes.ascending.imp fun below => Nat.compare_eq_lt.mp below)
  exact firstFree_fresh graph.nextId graph.nodes.keys ascending

theorem freshId_fresh (graph : Graph) : graph.node? graph.freshId = none := by
  cases found : graph.node? graph.freshId with
  | none => rfl
  | some node => exact absurd ((graph.nodes.mem_keys_iff _).mpr ⟨node, found⟩) graph.freshId_free.2

end Graph

end Dialogue

import Dialogue.Proofs.FiniteNumbers
/-!
Saving a graph and loading what was saved. A graph of numbers whose texts give them back is the same graph
after it, but for two things: the objects behind its handles are gone, and the next id is moved past all
ids that are in use.
-/
namespace Dialogue

open Json

def Value.detached : Value → Value
  | handle h => handle (.detached h.key)
  | value => value

theorem Value.reread_detached (value : Value)
    (exact : ∀ x, value = real x → real? (ofReal x) = some x) : value.reread = value.detached := by
  cases value with
  | real x => simp [reread, detached, exact x rfl]
  | empty | text _ | integer _ | boolean _ | handle _ => rfl

namespace Graph

/-- Every finite number in the graph is read back as what was written. -/
structure Exact (graph : Graph) : Prop where
  values : ∀ x, Value.real x ∈ graph.values → Real.isFinite x = true → real? (ofReal x) = some x
  positions : ∀ node ∈ graph.nodes.values, ∀ x ∈ [node.position.x, node.position.y],
    Single.isFinite x = true → single? (ofSingle x) = some x

theorem idAfter_highest (nodes : Keyed NodeId Node) :
    idAfter nodes.keys =
      (nodes.keys.max?.map fun highest => min (highest + 1) (2 ^ 32 - 1)).getD 1 := by
  have ascending : nodes.keys.Pairwise (· < ·) :=
    List.pairwise_map.mpr (nodes.ascending.imp fun below => Nat.compare_eq_lt.mp below)
  generalize nodes.keys = keys at ascending
  rcases List.eq_nil_or_concat keys with rfl | ⟨front, last, rfl⟩
  · rfl
  · -- Keys ascend, so the last one is the highest.
    have highest : (front.concat last).max? = some last := by
      rw [List.concat_eq_append] at ascending ⊢
      rw [List.max?_eq_some_iff]
      constructor
      · simp
      · intro key member
        rcases List.mem_append.mp member with earlier | same
        · exact ((List.pairwise_append.mp ascending).2.2 key earlier last (by simp)).le
        · exact (List.mem_singleton.mp same).le
    rw [highest]
    simp [idAfter, idBound]

theorem exact_values (graph : Graph) (finite : graph.Finite) (exact : graph.Exact) (value : Value)
    (member : value ∈ graph.values) (x : Float) (real : value = .real x) :
    real? (ofReal x) = some x := by
  subst real
  exact exact.values x member (finite.values x member)

theorem exact_position (graph : Graph) (finite : graph.Finite) (exact : graph.Exact) (node : Node)
    (member : node ∈ graph.nodes.values) :
    single? (ofSingle node.position.x) = some node.position.x ∧
      single? (ofSingle node.position.y) = some node.position.y := by
  obtain ⟨finiteX, finiteY⟩ := finite.positions node member
  constructor
  · exact exact.positions node member _ (by simp) finiteX
  · exact exact.positions node member _ (by simp) finiteY

theorem node_reread (graph : Graph) (finite : graph.Finite) (exact : graph.Exact) (node : Node)
    (member : node ∈ graph.nodes.values) :
    node.reread = { node with content := node.content.mapValues Value.detached } := by
  obtain ⟨readX, readY⟩ := graph.exact_position finite exact node member
  have position : node.position.reread = node.position := by
    simp [Point.reread, readX, readY]
  have content : node.content.mapValues Value.reread = node.content.mapValues Value.detached := by
    apply node.content.mapValues_congr
    intro value used
    apply value.reread_detached
    apply graph.exact_values finite exact value
    exact List.mem_append_right _ (List.mem_flatMap.mpr ⟨node, member, used⟩)
  rw [Node.reread, position, content]

theorem reread_detached (graph : Graph) (finite : graph.Finite) (exact : graph.Exact) :
    graph.reread =
      { graph.mapValues Value.detached with
        nextId := max graph.nextId (idAfter graph.nodes.keys) } := by
  have board : graph.board.mapValues Value.reread = graph.board.mapValues Value.detached := by
    apply graph.board.mapValues_congr
    intro value held
    apply value.reread_detached
    exact graph.exact_values finite exact value (List.mem_append_left _ held)
  have nodes : graph.nodes.mapValues Node.reread = graph.nodes.mapValues fun node =>
      { node with content := node.content.mapValues Value.detached } := by
    apply Keyed.ext
    apply List.map_congr_left
    intro entry filed
    have member : entry.2 ∈ graph.nodes.values := List.mem_map_of_mem filed
    simp only [graph.node_reread finite exact entry.2 member]
  rw [reread, mapValues, board, nodes]

end Graph

/-- The round trip. Version, string table, connections, nodes and properties are what they were, in the
order in which they were; every handle is detached, and no id after the next one is in use. -/
theorem Asset.loads_what_was_saved (asset : Asset) (version : asset.version = 1)
    (filed : asset.graph.IsFiled) (bounded : asset.graph.Bounded) (finite : asset.graph.Finite)
    (exact : asset.graph.Exact) :
    Asset.ofText asset.toText = .ok
      { version := asset.version
        graph :=
          { table := asset.graph.table
            nodes := asset.graph.nodes.mapValues fun node =>
              { node with content := node.content.mapValues Value.detached }
            connections := asset.graph.connections
            board := asset.graph.board.mapValues Value.detached
            nextId := max asset.graph.nextId
              ((asset.graph.nodes.keys.max?.map fun highest =>
                min (highest + 1) (2 ^ 32 - 1)).getD 1) } } := by
  obtain ⟨_, graph⟩ := asset
  subst version
  change Asset.ofText (Asset.new graph).toText = _
  rw [Asset.ofText_filed graph ((graph.isReadable_iff filed).mpr ⟨bounded, finite⟩) filed,
    graph.reread_detached finite exact, Graph.idAfter_highest]
  rfl

def Graph.sampler : Graph :=
  let door := Value.handle ⟨"door", some ⟨4, "Door"⟩⟩
  { table := "Tower"
    nodes := file [
      (1, .of .start),
      (2, { Node.line "hello" with position := ⟨120.5, -3.25⟩ }),
      (3, .of (.choice [some "yes", none])),
      (5, .of (.condition ⟨[⟨some "w", .compare .less (.real 0.5)⟩], .any⟩)),
      (9, .of (.action ⟨[⟨some "d", .call "open" [door, .integer 3]⟩]⟩))]
    connections := [.flow 1 0 2, .flow 2 0 3, .flow 3 1 5, .flow 5 1 9]
    board := ⟨[⟨"w", "weight", .real, .real 2.5⟩, ⟨"d", "door", .handle, door⟩]⟩
    nextId := 4 }

theorem Asset.loads_what_was_saved_demo :
    Graph.sampler.IsFiled ∧ ∃ loaded, Asset.ofText (Asset.new Graph.sampler).toText = .ok loaded ∧
      loaded.graph.nodes.keys = [1, 2, 3, 5, 9] ∧ loaded.graph.nextId = 10 := by
  have filed : Graph.sampler.IsFiled := by
    decide
  have bounded : Graph.sampler.Bounded := by
    constructor <;> decide
  have reals (x : Float) (member : Value.real x ∈ Graph.sampler.values) : x = 2.5 ∨ x = 0.5 := by
    let door := Value.handle ⟨"door", some ⟨4, "Door"⟩⟩
    have values : Graph.sampler.values = [.real 2.5, door, .real 0.5, door, .integer 3] := rfl
    simpa [values, door] using member
  have finite : Graph.sampler.Finite := by
    constructor
    · intro x member
      rcases reals x member with rfl | rfl <;> decide +kernel
    · decide +kernel
  have exact : Graph.sampler.Exact := by
    constructor
    · intro x member _
      rcases reals x member with rfl | rfl <;> decide +kernel
    · decide +kernel
  have loaded := Asset.loads_what_was_saved (Asset.new Graph.sampler) rfl filed bounded finite exact
  exact ⟨filed, _, loaded, by decide, by decide⟩

end Dialogue

import Dialogue.Proofs.FiniteNumbers
import Dialogue.Proofs.SoundGraphs
/-!
Which authored graphs can be loaded once they are saved. Edits keep ids and pins within the words they are
stored as, so a saved graph is refused for its numbers only: a value that became infinite is written as
null, and null is not read as a number.
-/
namespace Dialogue

variable {σ : Type}

namespace Graph

structure Numbered (graph : Graph) : Prop where
  nodes : ∀ id ∈ graph.nodes.keys, id < idBound
  next : graph.nextId < idBound

theorem addNode_numbered (graph : Graph) (node : Node) (numbered : graph.Numbered)
    (room : graph.freshId + 1 < idBound) : (graph.addNode node).2.Numbered := by
  constructor
  · intro id member
    obtain ⟨kept, found⟩ := (Keyed.mem_keys_iff _ id).mp member
    simp only [addNode, Keyed.find_insert] at found
    split at found
    next fresh =>
      subst fresh
      exact Nat.lt_of_succ_lt room
    · exact numbered.nodes id ((Keyed.mem_keys_iff _ id).mpr ⟨kept, found⟩)
  · exact room

theorem idAfter_lt (keys : List NodeId) : idAfter keys < idBound := by
  unfold idAfter
  split
  · exact Nat.lt_of_le_of_lt (Nat.min_le_right _ _) (by decide)
  · decide

theorem reread_numbered (graph : Graph) (numbered : graph.Numbered) : graph.reread.Numbered := by
  have keys : graph.reread.nodes.keys = graph.nodes.keys := graph.nodes.keys_mapWithKey _
  constructor
  · intro id member
    exact numbered.nodes id (keys ▸ member)
  · exact Nat.max_lt.mpr ⟨numbered.next, idAfter_lt _⟩

end Graph

namespace Edit

theorem accepted_numbered (graph after : Graph) (edit : Edit σ) (numbered : graph.Numbered)
    (accepted : edit.Accepted graph after) : after.Numbered := by
  -- An edit that adds no node hands out no id.
  have fewer {after : Graph} (keys : after.nodes.keys ⊆ graph.nodes.keys)
      (next : after.nextId = graph.nextId) : after.Numbered :=
    ⟨fun id member => numbered.nodes id (keys member), next ▸ numbered.next⟩
  have same {after : Graph} (keys : after.nodes.keys = graph.nodes.keys)
      (next : after.nextId = graph.nextId) : after.Numbered :=
    fewer (keys ▸ List.Subset.refl _) next
  cases accepted with
  | addNode room => exact graph.addNode_numbered _ numbered room
  | removeNode stored => exact fewer (List.filter_sublist.map _).subset rfl
  | connect allowed => exact same rfl rfl
  | link allowed => exact same rfl rfl
  | disconnect => exact same rfl rfl
  | addChoice choice => exact same (graph.nodes.keys_mapWithKey _) rfl
  | removeChoice choice within => exact same (graph.nodes.keys_mapWithKey _) rfl
  | setChoiceKey choice => exact same (graph.nodes.keys_mapWithKey _) rfl
  | addProperty added => exact same rfl rfl
  | removeProperty removed => exact same rfl rfl
  | renameProperty renamed => exact same rfl rfl
  | setValue written => exact same rfl rfl
  | bindHandles => exact same (graph.nodes.keys_mapWithKey _) rfl
  | reload loaded =>
      rw [(graph.loaded_reread _ loaded).2]
      exact graph.reread_numbered numbered

end Edit

namespace Graph

theorem authored_numbered (table : String) (edits : List (Edit σ)) :
    (authored table edits).Numbered := by
  apply authored_invariant Numbered table edits _ Edit.accepted_numbered
  constructor
  · exact fun _ member => (List.not_mem_nil member).elim
  · show 1 < idBound
    decide

theorem inputs_le_one (node : Node) : node.inputs.length ≤ 1 := by
  unfold Node.inputs
  cases node.kind <;> decide

/-- Connections of a sound graph join pins that are there, so their numbers fit if those of the pins do. -/
theorem bounded_of_sound (graph : Graph) (sound : graph.Sound) (numbered : graph.Numbered)
    (counted : ∀ node ∈ graph.nodes.values, node.outputs.length ≤ countBound) : graph.Bounded := by
  refine ⟨numbered.nodes, ?_, numbered.next⟩
  intro connection member
  obtain ⟨_, ⟨source, foundSource, out⟩, target, foundTarget, into⟩ := sound.joined connection member
  have within (id : NodeId) (node : Node) (found : graph.node? id = some node) : id < idBound :=
    numbered.nodes id ((graph.nodes.mem_keys_iff id).mpr ⟨node, found⟩)
  have outputs := counted source (List.mem_map_of_mem (graph.nodes.mem_of_find _ _ foundSource))
  have inputs : target.inputs.length ≤ countBound :=
    Nat.le_trans (inputs_le_one target) (by decide)
  simp only [Connection.fits, Endpoint.fits, Bool.and_eq_true, decide_eq_true_eq]
  exact ⟨⟨within _ _ foundSource, Nat.lt_of_lt_of_le out outputs⟩,
    within _ _ foundTarget, Nat.lt_of_lt_of_le into inputs⟩

end Graph

namespace Asset

/-- What becomes of an authored graph that is saved: it comes back if all its numbers are finite, and is
refused for its form if one is not. -/
theorem authored_loads (table : String) (edits : List (Edit σ))
    (counted : ∀ node ∈ (Graph.authored table edits).nodes.values,
      node.outputs.length ≤ countBound) :
    ((Graph.authored table edits).Finite →
        ofText (new (Graph.authored table edits)).toText =
          .ok (new (Graph.authored table edits).reread)) ∧
      (¬(Graph.authored table edits).Finite →
        ofText (new (Graph.authored table edits)).toText = .error (.data .malformed)) := by
  have bounded := (Graph.authored table edits).bounded_of_sound (Graph.authored_sound table edits)
    (Graph.authored_numbered table edits) counted
  have filed := Graph.authored_filed table edits
  constructor
  · intro finite
    exact ofText_filed _ ((Graph.isReadable_iff _ filed).mpr ⟨bounded, finite⟩) filed
  · intro infinite
    exact ofText_unreadable _ fun readable => infinite ((Graph.isReadable_iff _ filed).mp readable).2

def endless : List (Edit Unit) :=
  [.addNode (.of .start), .addProperty "w" "weight" .real, .setValue "w" (.text "inf")]

/-- Saving gives out a text that loading refuses. -/
theorem infinite_value_refused :
    ¬ ∀ (table : String) (edits : List (Edit Unit)), ∃ asset,
      ofText (new (Graph.authored table edits)).toText = .ok asset := by
  intro loads
  obtain ⟨asset, loaded⟩ := loads "Main" endless
  have unreadable : (Graph.authored "Main" endless).isReadable ≠ true := by
    decide +kernel
  rw [ofText_unreadable _ unreadable] at loaded
  cases loaded

theorem authored_loads_demo :
    ofText (new (Graph.authored "Main" (endless ++ [.setValue "w" (.text "2.5")]))).toText =
        .ok (new (Graph.authored "Main" (endless ++ [.setValue "w" (.text "2.5")])).reread) ∧
      ofText (new (Graph.authored "Main" endless)).toText = .error (.data .malformed) := by
  constructor
  · have readable : (Graph.authored "Main" (endless ++ [.setValue "w" (.text "2.5")])).isReadable := by
      decide +kernel
    have finite := ((Graph.isReadable_iff _ (Graph.authored_filed _ _)).mp readable).2
    exact (authored_loads "Main" _ (by decide +kernel)).1 finite
  · apply (authored_loads "Main" endless (by decide +kernel)).2
    intro finite
    have held : Value.real (Real.ofCode false Format.double.infinity) ∈
        (Graph.authored "Main" endless).values := by
      decide +kernel
    exact absurd (finite.values _ held) (by decide +kernel)

end Asset

end Dialogue

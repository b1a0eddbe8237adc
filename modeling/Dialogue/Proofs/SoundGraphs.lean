import Dialogue.Proofs.BoardLaws
import Dialogue.Proofs.Reloading
import Dialogue.Proofs.SoundConnections
/-!
Authored graphs are sound: what edits of properties keep, what binding handles and reloading keep, and so
what every run of edits keeps.
-/
namespace Dialogue

variable {σ : Type}

namespace Graph

theorem mem_renamed (id : PropertyId) (name other : String) (properties : List Property)
    (member : other ∈ (Board.updateFirst id (fun property => { property with name := name })
      properties).map Property.name) :
    other = name ∨ other ∈ properties.map Property.name := by
  obtain ⟨property, present, rfl⟩ := List.mem_map.mp member
  rcases Board.mem_updateFirst id _ properties property present with stood | ⟨_, _, rfl⟩
  · exact Or.inr (List.mem_map_of_mem stood)
  · exact Or.inl rfl

theorem updateFirst_renamed (id : PropertyId) (name : String) (properties : List Property)
    (named : (properties.map Property.name).Nodup)
    (free : name ∉ properties.map Property.name) :
    ((Board.updateFirst id (fun property => { property with name := name }) properties).map
      Property.name).Nodup := by
  induction properties with
  | nil => exact List.nodup_nil
  | cons property rest ih =>
      obtain ⟨alone, tail⟩ := List.nodup_cons.mp named
      obtain ⟨different, absent⟩ := List.ne_and_not_mem_of_not_mem_cons free
      rw [Board.updateFirst]
      split
      · exact List.nodup_cons.mpr ⟨absent, tail⟩
      · refine List.nodup_cons.mpr ⟨fun member => ?_, ih tail absent⟩
        rcases mem_renamed id name property.name rest member with same | present
        · exact different same.symm
        · exact alone present

theorem named_none_iff (board : Board) (name : String) :
    (board.named? name).isSome = false ↔ name ∉ board.properties.map Property.name := by
  simp [Board.named?]

theorem addProperty_sound (graph : Graph) (id : PropertyId) (name : String) (kind : Kind)
    (property : Property) (board : Board) (sound : graph.Sound)
    (added : graph.board.add id name kind = .ok (property, board)) :
    Sound { graph with board := board } := by
  unfold Board.add at added
  split at added
  · cases added
  · split at added
    · cases added
    next free =>
      cases added
      have absent := (named_none_iff graph.board name).mp (Bool.eq_false_iff.mpr free)
      apply sound_of_board graph _ sound
      rw [List.map_append, List.map_singleton, ← List.concat_eq_append]
      exact sound.named.concat absent

theorem removeProperty_sound (graph : Graph) (id : PropertyId) (property : Property) (board : Board)
    (sound : graph.Sound) (removed : graph.board.remove id = some (property, board)) :
    Sound { graph with board := board } := by
  obtain ⟨_, _, same⟩ := Option.map_eq_some_iff.mp removed
  cases same
  exact sound_of_board graph _ sound (sound.named.sublist (List.eraseP_sublist.map _))

theorem renameProperty_sound (graph : Graph) (id : PropertyId) (name : String) (board : Board)
    (sound : graph.Sound) (renamed : graph.board.rename id name = .ok board) :
    Sound { graph with board := board } := by
  unfold Board.rename at renamed
  split at renamed
  · cases renamed
  · split at renamed
    · cases renamed
    · split at renamed
      · cases renamed
        exact sound
      · split at renamed
        · cases renamed
        next free =>
          cases renamed
          have absent := (named_none_iff graph.board name).mp (Bool.eq_false_iff.mpr free)
          exact sound_of_board graph _ sound (updateFirst_renamed id name _ sound.named absent)

theorem setValue_sound (graph : Graph) (id : PropertyId) (value : Value) (board : Board)
    (sound : graph.Sound) (written : graph.board.setValue id value = .ok board) :
    Sound { graph with board := board } := by
  unfold Board.setValue at written
  split at written
  · cases written
  · cases written
    have names := Board.updateFirst_map Property.name id (fun property => property.assign value)
      graph.board.properties fun _ => rfl
    exact sound_of_board graph _ sound (names ▸ sound.named)

theorem outputs_mapValues (f : Value → Value) (node : Node) (position : Point) :
    (Node.mk node.id position (node.content.mapValues f)).outputs = node.outputs := by
  obtain ⟨_, _, content⟩ := node
  cases content <;> rfl

theorem inputs_mapValues (f : Value → Value) (node : Node) (position : Point) :
    (Node.mk node.id position (node.content.mapValues f)).inputs = node.inputs := by
  obtain ⟨_, _, content⟩ := node
  cases content <;> rfl

theorem keeps_mapValues (before after : Graph) (f : Value → Value) (move : Node → Point)
    (same : after.nodes = before.nodes.mapValues fun node =>
      ⟨node.id, move node, node.content.mapValues f⟩) : Keeps before after := by
  intro id node found
  refine ⟨⟨node.id, move node, node.content.mapValues f⟩, ?_, ?_, ?_⟩
  · simp only [node?] at found ⊢
    rw [same, Keyed.find_mapValues, found]
    rfl
  · exact Nat.le_of_eq (congrArg List.length (outputs_mapValues f node (move node)).symm)
  · exact Nat.le_of_eq (congrArg List.length (inputs_mapValues f node (move node)).symm)

theorem names_mapValues (board : Board) (f : Value → Value) :
    (board.mapValues f).properties.map Property.name = board.properties.map Property.name := by
  simp [Board.mapValues]

theorem bindHandles_sound (graph : Graph) (host : Host σ) (sound : graph.Sound) :
    (graph.bindHandles host).2.Sound :=
  sound_of_keeps graph _ sound (keeps_mapValues _ _ host.rebindValue Node.position rfl)
    (List.Sublist.refl _) (names_mapValues _ _)

theorem reread_sound (graph : Graph) (sound : graph.Sound) : graph.reread.Sound :=
  sound_of_keeps graph _ sound
    (keeps_mapValues _ _ Value.reread (fun node => node.position.reread) rfl)
    (List.Sublist.refl _) (names_mapValues _ _)

/-- Nodes that keep their ids stay where they belong. -/
theorem filed_mapWithKey (before after : Graph) (f : NodeId → Node → Node)
    (same : after.nodes = before.nodes.mapWithKey f) (kept : ∀ key node, (f key node).id = node.id)
    (filed : before.IsFiled) : after.IsFiled := by
  intro entry member
  rw [same] at member
  obtain ⟨old, stood, rfl⟩ := List.mem_map.mp member
  exact (kept old.1 old.2).trans (filed old stood)

theorem filed_setContent (graph : Graph) (id : NodeId) (content : Content) (filed : graph.IsFiled) :
    (graph.setContent id content).IsFiled := by
  refine filed_mapWithKey graph _
    (fun key node => if key = id then { node with content := content } else node) rfl ?_ filed
  intro key node
  split <;> rfl

theorem filed_mapValues (graph : Graph) (f : Value → Value) (filed : graph.IsFiled) :
    (graph.mapValues f).IsFiled :=
  filed_mapWithKey graph _ (fun _ node => { node with content := node.content.mapValues f }) rfl
    (fun _ _ => rfl) filed

theorem filed_addNode (graph : Graph) (node : Node) (filed : graph.IsFiled) :
    (graph.addNode node).2.IsFiled := by
  intro entry member
  rcases Entries.mem_insert member with rfl | stood
  · rfl
  · exact filed entry stood

end Graph

namespace Edit

theorem accepted_filed (graph after : Graph) (edit : Edit σ) (filed : graph.IsFiled)
    (accepted : edit.Accepted graph after) : after.IsFiled := by
  cases accepted with
  | addNode room => exact graph.filed_addNode _ filed
  | removeNode stored => exact fun entry member => filed entry (List.mem_of_mem_filter member)
  | addChoice | removeChoice | setChoiceKey => exact graph.filed_setContent _ _ filed
  | bindHandles => exact graph.filed_mapValues _ filed
  | reload loaded => exact (graph.loaded_reread _ loaded).2 ▸ graph.reread_filed filed
  | _ => exact filed

theorem accepted_sound (graph after : Graph) (edit : Edit σ) (sound : graph.Sound)
    (accepted : edit.Accepted graph after) : after.Sound := by
  cases accepted with
  | addNode room => exact graph.addNode_sound _ sound
  | removeNode stored => exact graph.removeNode_sound _ sound
  | connect allowed => exact graph.push_sound _ sound allowed
  | link allowed => exact graph.push_sound _ sound allowed
  | disconnect => exact graph.disconnect_sound _ sound
  | addChoice choice => exact graph.setContent_sound _ _ _ sound choice (by simp)
  | removeChoice choice within => exact graph.removeChoice_sound _ _ _ sound choice within
  | setChoiceKey choice => exact graph.setContent_sound _ _ _ sound choice (by simp)
  | addProperty added => exact graph.addProperty_sound _ _ _ _ _ sound added
  | removeProperty removed => exact graph.removeProperty_sound _ _ _ sound removed
  | renameProperty renamed => exact graph.renameProperty_sound _ _ _ sound renamed
  | setValue written => exact graph.setValue_sound _ _ _ sound written
  | bindHandles => exact graph.bindHandles_sound _ sound
  | reload loaded =>
      rw [(graph.loaded_reread _ loaded).2]
      exact graph.reread_sound sound

end Edit

namespace Graph

theorem new_sound (table : String) : (new table).Sound :=
  ⟨fun _ member => (List.not_mem_nil member).elim, List.nodup_nil, List.nodup_nil⟩

theorem authored_sound (table : String) (edits : List (Edit σ)) : (authored table edits).Sound :=
  authored_invariant Sound table edits (new_sound table) Edit.accepted_sound

theorem authored_filed (table : String) (edits : List (Edit σ)) : (authored table edits).IsFiled :=
  authored_invariant IsFiled table edits (fun _ member => (List.not_mem_nil member).elim)
    Edit.accepted_filed

end Graph

end Dialogue

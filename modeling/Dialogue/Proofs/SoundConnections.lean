import Dialogue.Proofs.Authoring
import Mathlib.Data.List.Nodup
/-!
What edits of nodes and connections keep. Connections join pins that their nodes have, no output has two
of them, and no two properties have one name.
-/
namespace Dialogue

namespace Graph

def Joins (graph : Graph) (connection : Connection) : Prop :=
  connection.source.node ≠ connection.target.node ∧
    (∃ node, graph.node? connection.source.node = some node ∧
      connection.source.pin < node.outputs.length) ∧
    ∃ node, graph.node? connection.target.node = some node ∧
      connection.target.pin < node.inputs.length

structure Sound (graph : Graph) : Prop where
  joined : ∀ connection ∈ graph.connections, graph.Joins connection
  single : (graph.connections.map Connection.source).Nodup
  named : (graph.board.properties.map Property.name).Nodup

def Keeps (before after : Graph) : Prop :=
  ∀ id node, before.node? id = some node → ∃ kept, after.node? id = some kept ∧
    node.outputs.length ≤ kept.outputs.length ∧ node.inputs.length ≤ kept.inputs.length

theorem joins_kept (before after : Graph) (keeps : Keeps before after) (connection : Connection)
    (joins : before.Joins connection) : after.Joins connection := by
  obtain ⟨apart, ⟨source, foundSource, out⟩, target, foundTarget, into⟩ := joins
  obtain ⟨keptSource, stillSource, outputs, _⟩ := keeps _ _ foundSource
  obtain ⟨keptTarget, stillTarget, _, inputs⟩ := keeps _ _ foundTarget
  exact ⟨apart, ⟨keptSource, stillSource, Nat.lt_of_lt_of_le out outputs⟩,
    keptTarget, stillTarget, Nat.lt_of_lt_of_le into inputs⟩

theorem keeps_same (before after : Graph) (same : after.nodes = before.nodes) :
    Keeps before after := by
  intro id node found
  exact ⟨node, by rw [node?, same]; exact found, Nat.le_refl _, Nat.le_refl _⟩

/-- An edit that keeps nodes, drops no more than some connections and leaves the names. -/
theorem sound_of_keeps (before after : Graph) (sound : before.Sound) (keeps : Keeps before after)
    (fewer : after.connections.Sublist before.connections)
    (names : after.board.properties.map Property.name = before.board.properties.map Property.name) :
    after.Sound where
  joined connection member :=
    joins_kept before after keeps connection (sound.joined connection (fewer.subset member))
  single := sound.single.sublist (fewer.map _)
  named := names ▸ sound.named

theorem sound_of_board (graph : Graph) (board : Board) (sound : graph.Sound)
    (named : (board.properties.map Property.name).Nodup) :
    Sound { graph with board := board } :=
  ⟨sound.joined, sound.single, named⟩

theorem addNode_sound (graph : Graph) (node : Node) (sound : graph.Sound) :
    (graph.addNode node).2.Sound := by
  refine sound_of_keeps graph _ sound ?_ (List.Sublist.refl _) rfl
  intro id kept found
  refine ⟨kept, ?_, Nat.le_refl _, Nat.le_refl _⟩
  have other : id ≠ graph.freshId := by
    rintro rfl
    rw [graph.freshId_fresh] at found
    cases found
  simp only [node?] at found ⊢
  simpa [addNode, other] using found

theorem removeNode_sound (graph : Graph) (id : NodeId) (sound : graph.Sound) :
    Sound { graph with
      nodes := graph.nodes.erase id
      connections := graph.connections.filter fun connection => !touches id connection } := by
  refine ⟨fun connection member => ?_, ?_, sound.named⟩
  · -- A connection that stays has the removed node at neither end.
    obtain ⟨stands, apart⟩ := List.mem_filter.mp member
    obtain ⟨different, ⟨source, foundSource, out⟩, target, foundTarget, into⟩ :=
      sound.joined connection stands
    simp only [touches, Bool.not_or, Bool.and_eq_true, Bool.not_eq_true', decide_eq_false_iff_not]
      at apart
    refine ⟨different, ⟨source, ?_, out⟩, target, ?_, into⟩
    · simpa [node?, apart.1] using foundSource
    · simpa [node?, apart.2] using foundTarget
  · exact sound.single.sublist (List.filter_sublist.map _)

/-- A connection to which there is no objection joins two nodes, and its output is free. -/
theorem objection_none (graph : Graph) (connection : Connection)
    (allowed : graph.objection? connection = none) :
    graph.Joins connection ∧ graph.target? connection.source = none := by
  simp only [objection?] at allowed
  split at allowed
  · cases allowed
  · cases allowed
  next source target foundSource foundTarget =>
    split at allowed
    · cases allowed
    next apart =>
      split at allowed
      · cases allowed
      next out =>
        split at allowed
        · cases allowed
        next into =>
          split at allowed
          · cases allowed
          next free =>
            refine ⟨⟨apart, ⟨source, foundSource, ?_⟩, target, foundTarget, ?_⟩, ?_⟩
            · exact Nat.lt_of_not_le out
            · exact Nat.lt_of_not_le into
            · simpa using free

theorem objection_none_iff (graph : Graph) (connection : Connection) :
    graph.objection? connection = none ↔
      graph.Joins connection ∧ graph.target? connection.source = none := by
  constructor
  · exact graph.objection_none connection
  · rintro ⟨⟨apart, ⟨source, foundSource, out⟩, target, foundTarget, into⟩, free⟩
    simp only [objection?, foundSource, foundTarget]
    rw [if_neg apart, if_neg (Nat.not_le_of_lt out), if_neg (Nat.not_le_of_lt into), free]
    rfl

theorem target_none_iff (graph : Graph) (source : Endpoint) :
    graph.target? source = none ↔ source ∉ graph.connections.map Connection.source := by
  simp [target?, List.find?_eq_none]

theorem push_sound (graph : Graph) (connection : Connection) (sound : graph.Sound)
    (allowed : graph.objection? connection = none) : (graph.push connection).Sound := by
  obtain ⟨joins, free⟩ := graph.objection_none connection allowed
  refine ⟨fun other member => ?_, ?_, sound.named⟩
  · rcases List.mem_append.mp member with stands | added
    · exact sound.joined other stands
    · rw [List.mem_singleton.mp added]
      exact joins
  · -- Nothing left the output so far.
    have fresh := (graph.target_none_iff connection.source).mp free
    rw [push, List.map_append, List.map_singleton, ← List.concat_eq_append]
    exact sound.single.concat fresh

theorem disconnect_sound (graph : Graph) (source : Endpoint) (sound : graph.Sound) :
    Sound { graph with
      connections := graph.connections.eraseP fun connection => connection.source = source } :=
  sound_of_keeps graph _ sound (keeps_same _ _ rfl) List.eraseP_sublist rfl

theorem answers_ok (graph : Graph) (id : NodeId) (answers : List (Option String))
    (found : graph.answers? id = .ok answers) :
    ∃ node, graph.node? id = some node ∧ node.content = .choice answers := by
  unfold answers? at found
  split at found
  · cases found
  next node stored =>
    split at found
    next same =>
      cases found
      exact ⟨node, stored, same⟩
    · cases found

theorem answers_ok_iff (graph : Graph) (id : NodeId) (answers : List (Option String)) :
    graph.answers? id = .ok answers ↔
      ∃ node, graph.node? id = some node ∧ node.content = .choice answers := by
  constructor
  · exact graph.answers_ok id answers
  · rintro ⟨node, stored, content⟩
    simp only [answers?, stored, content]

theorem setContent_node (graph : Graph) (id other : NodeId) (answers others : List (Option String))
    (node : Node) (found : graph.answers? id = .ok answers)
    (present : graph.node? other = some node) :
    ∃ kept, (graph.setContent id (.choice others)).node? other = some kept ∧
      kept.inputs = node.inputs ∧
      (other ≠ id → kept.outputs = node.outputs) ∧
      (other = id →
        node.outputs.length = answers.length ∧ kept.outputs.length = others.length) := by
  obtain ⟨choice, stored, same⟩ := graph.answers_ok id answers found
  by_cases hit : other = id
  · subst hit
    rw [stored] at present
    cases present
    refine ⟨{ node with content := .choice others }, ?_, ?_, fun away => absurd rfl away, ?_⟩
    · simp only [node?] at stored ⊢
      simp [setContent, stored]
    · simp [Node.inputs, Node.kind, Content.kind, same]
    · simp [Node.outputs, Node.kind, Content.kind, NodeKind.outputs, same]
  · refine ⟨node, ?_, rfl, fun _ => rfl, fun own => absurd own hit⟩
    simp only [node?] at present ⊢
    simp [setContent, hit, present]

/-- Another list of answers, as long as it is no shorter, takes no pin away. -/
theorem keeps_setContent (graph : Graph) (id : NodeId) (answers others : List (Option String))
    (found : graph.answers? id = .ok answers) (enough : answers.length ≤ others.length) :
    Keeps graph (graph.setContent id (.choice others)) := by
  intro other node present
  obtain ⟨kept, still, inputs, elsewhere, here⟩ :=
    graph.setContent_node id other answers others node found present
  refine ⟨kept, still, ?_, Nat.le_of_eq (congrArg List.length inputs.symm)⟩
  by_cases hit : other = id
  · rw [(here hit).1, (here hit).2]
    exact enough
  · exact Nat.le_of_eq (congrArg List.length (elsewhere hit).symm)

theorem setContent_sound (graph : Graph) (id : NodeId) (answers others : List (Option String))
    (sound : graph.Sound) (choice : graph.answers? id = .ok answers)
    (enough : answers.length ≤ others.length) : (graph.setContent id (.choice others)).Sound :=
  sound_of_keeps graph _ sound (graph.keeps_setContent id answers others choice enough)
    (List.Sublist.refl _) rfl

/-- Where a pin was before answer `index` of node `id` was taken out. -/
def unshift (id : NodeId) (index : Nat) (source : Endpoint) : Endpoint :=
  if source.node = id ∧ index ≤ source.pin then ⟨id, source.pin + 1⟩ else source

theorem unshift_node (id : NodeId) (index : Nat) (source : Endpoint) :
    (unshift id index source).node = source.node := by
  unfold unshift
  split
  next own => exact own.1.symm
  · rfl

theorem shiftPin_some (id : NodeId) (index : Nat) (connection moved : Connection)
    (shifted : shiftPin id index connection = some moved) :
    connection.source = unshift id index moved.source ∧ moved.target = connection.target := by
  obtain ⟨⟨node, pin⟩, target⟩ := connection
  unfold shiftPin at shifted
  split at shifted
  next other =>
    cases shifted
    exact ⟨(if_neg fun own => other own.1).symm, rfl⟩
  next own =>
    have same : node = id := not_not.mp own
    subst same
    split at shifted
    · cases shifted
    next different =>
      split at shifted
      next later =>
        cases shifted
        have back : pin - 1 + 1 = pin := Nat.sub_add_cancel (Nat.one_le_of_lt later)
        have moved : index ≤ pin - 1 := Nat.le_sub_one_of_lt later
        simp [unshift, moved, back]
      next earlier =>
        cases shifted
        have stays : ¬index ≤ pin := fun reached =>
          earlier (Nat.lt_of_le_of_ne reached (Ne.symm different))
        simp [unshift, stays]

theorem shifted_single (id : NodeId) (index : Nat) (connections : List Connection)
    (single : (connections.map Connection.source).Nodup) :
    ((connections.filterMap (shiftPin id index)).map Connection.source).Nodup := by
  refine List.pairwise_map.mpr (List.Pairwise.filterMap _ ?_ (List.pairwise_map.mp single))
  intro left right apart movedLeft shiftedLeft movedRight shiftedRight same
  apply apart
  rw [(shiftPin_some id index left movedLeft shiftedLeft).1,
    (shiftPin_some id index right movedRight shiftedRight).1, same]

theorem removeChoice_sound (graph : Graph) (id : NodeId) (index : Nat)
    (answers : List (Option String)) (sound : graph.Sound) (found : graph.answers? id = .ok answers)
    (within : index < answers.length) :
    Sound { graph.setContent id (.choice (answers.eraseIdx index)) with
      connections := graph.connections.filterMap (shiftPin id index) } := by
  refine ⟨fun moved member => ?_, shifted_single id index _ sound.single, sound.named⟩
  obtain ⟨connection, stands, shifted⟩ := List.mem_filterMap.mp member
  obtain ⟨source, target⟩ := shiftPin_some id index connection moved shifted
  obtain ⟨apart, ⟨left, foundLeft, out⟩, right, foundRight, into⟩ :=
    sound.joined connection stands
  have leaves : connection.source.node = moved.source.node := by
    rw [source, unshift_node]
  rw [leaves] at apart foundLeft
  rw [← target] at apart foundRight into
  obtain ⟨keptLeft, stillLeft, _, elsewhere, here⟩ :=
    graph.setContent_node id _ answers (answers.eraseIdx index) left found foundLeft
  obtain ⟨keptRight, stillRight, inputs, _⟩ :=
    graph.setContent_node id _ answers (answers.eraseIdx index) right found foundRight
  refine ⟨apart, ⟨keptLeft, stillLeft, ?_⟩, keptRight, stillRight, inputs ▸ into⟩
  by_cases hit : moved.source.node = id
  · -- The pin it had was below the old number of answers.
    obtain ⟨before, now⟩ := here hit
    rw [before, source] at out
    rw [now, List.length_eraseIdx_of_lt within]
    by_cases later : index ≤ moved.source.pin
    · rw [unshift, if_pos ⟨hit, later⟩] at out
      exact Nat.lt_sub_of_add_lt out
    · exact Nat.lt_of_lt_of_le (Nat.lt_of_not_le later) (Nat.le_sub_one_of_lt within)
  · rw [elsewhere hit]
    rwa [source, unshift, if_neg fun own => hit own.1] at out

end Graph

end Dialogue

import Dialogue.Proofs.SoundGraphs
import Mathlib.Logic.Function.Basic
/-!
Connections as a map from outputs to inputs. The list of an authored graph holds no output twice, so
looking up the first match is looking up the map, and every edit of the list is an edit of the map.
-/
namespace Dialogue

variable {σ : Type}

abbrev Wiring := Endpoint → Option Endpoint

namespace Wiring

def join (wiring : Wiring) (connection : Connection) : Wiring :=
  Function.update wiring connection.source (some connection.target)

def cut (wiring : Wiring) (source : Endpoint) : Wiring := Function.update wiring source none

def isolate (wiring : Wiring) (id : NodeId) : Wiring := fun source =>
  if source.node = id then none else (wiring source).filter fun target => target.node ≠ id

/-- Takes out one output of the node; those behind it move down by one pin. -/
def close (wiring : Wiring) (id : NodeId) (index : Nat) : Wiring := fun source =>
  wiring (Graph.unshift id index source)

end Wiring

namespace Graph

/-- The connections are the entries of the map, and no output is listed twice. -/
structure Represents (connections : List Connection) (wiring : Wiring) : Prop where
  single : (connections.map Connection.source).Nodup
  entries : ∀ source target, ⟨source, target⟩ ∈ connections ↔ wiring source = some target

theorem represents_target (graph : Graph)
    (single : (graph.connections.map Connection.source).Nodup) :
    Represents graph.connections graph.target? where
  single := single
  entries source target := by
    constructor
    · intro listed
      cases leads : graph.target? source with
      | none => exact absurd (List.mem_map_of_mem listed) ((graph.target_none_iff source).mp leads)
      | some first =>
          -- No other connection leaves this output.
          have same := List.inj_on_of_nodup_map single listed (graph.target_listed leads) rfl
          rw [(Connection.mk.inj same).2]
    · exact graph.target_listed

/-- A list represents one map only, and looking for the first match is looking that map up. -/
theorem target_represented (graph : Graph) (wiring : Wiring)
    (represents : Represents graph.connections wiring) : graph.target? = wiring := by
  funext source
  apply Option.ext
  intro target
  rw [← represents.entries, (graph.represents_target represents.single).entries]

theorem shiftPin_unshift (id : NodeId) (index : Nat) (source target : Endpoint) :
    shiftPin id index ⟨unshift id index source, target⟩ = some ⟨source, target⟩ := by
  obtain ⟨node, pin⟩ := source
  by_cases moved : node = id ∧ index ≤ pin
  · obtain ⟨rfl, later⟩ := moved
    have behind : index < pin + 1 := Nat.lt_succ_of_le later
    simp [unshift, shiftPin, later, Nat.ne_of_gt behind, behind]
  · by_cases own : node = id
    · have earlier : pin < index := Nat.lt_of_not_le fun later => moved ⟨own, later⟩
      simp [unshift, shiftPin, own, Nat.not_le_of_lt earlier, Nat.ne_of_lt earlier,
        Nat.not_lt_of_lt earlier]
    · simp [unshift, shiftPin, own]

section Edits

variable (connections : List Connection) (wiring : Wiring)
  (represents : Represents connections wiring)
include represents

theorem join_represented (connection : Connection) (free : wiring connection.source = none) :
    Represents (connections ++ [connection]) (wiring.join connection) := by
  have unused : connection.source ∉ connections.map Connection.source := by
    intro used
    obtain ⟨earlier, listed, same⟩ := List.mem_map.mp used
    have leads := (represents.entries earlier.source earlier.target).mp listed
    rw [same, free] at leads
    cases leads
  constructor
  · rw [List.map_append, List.map_singleton, ← List.concat_eq_append]
    exact represents.single.concat unused
  · intro source target
    rw [List.mem_append, List.mem_singleton, represents.entries, Wiring.join]
    by_cases own : source = connection.source
    · subst own
      obtain ⟨output, input⟩ := connection
      simp_all [eq_comm]
    · have other : (⟨source, target⟩ : Connection) ≠ connection := fun same =>
        own (congrArg Connection.source same)
      simp [own, other]

theorem cut_represented (source : Endpoint) :
    Represents (connections.eraseP fun connection => connection.source = source)
      (wiring.cut source) := by
  -- No other connection leaves the output, so the first is all there is to take out.
  rw [eraseP_distinct Connection.source source connections represents.single]
  refine ⟨represents.single.sublist (List.filter_sublist.map _), fun other target => ?_⟩
  rw [List.mem_filter, represents.entries, Wiring.cut]
  by_cases own : other = source
  · simp [own]
  · simp [own]

theorem isolate_represented (id : NodeId) :
    Represents (connections.filter fun connection => !touches id connection)
      (wiring.isolate id) := by
  refine ⟨represents.single.sublist (List.filter_sublist.map _), fun source target => ?_⟩
  rw [List.mem_filter, represents.entries, Wiring.isolate]
  by_cases own : source.node = id
  · simp [touches, own]
  · simp [touches, own, Option.filter_eq_some_iff]

end Edits

/-- What makes a result out of a graph does so exactly where it is allowed, and what it makes has an
outcome. -/
structure Yields {α : Type} (makes : α → Prop) (allowed : Prop) (outcome : α → Prop) : Prop where
  made_iff : (∃ made, makes made) ↔ allowed
  comes : ∀ made, makes made → outcome made

section Yielding

variable {α : Type} {makes outcome : α → Prop} {allowed : Prop}

theorem Yields.refused (refuses : ∀ made, ¬makes made) (disallowed : ¬allowed) :
    Yields makes allowed outcome where
  made_iff := iff_of_false (fun ⟨made, makes⟩ => refuses made makes) disallowed
  comes made makes := absurd makes (refuses made)

theorem Yields.made (made : α) (only : ∀ other, makes other ↔ made = other) (isAllowed : allowed)
    (comes : outcome made) : Yields makes allowed outcome where
  made_iff := iff_of_true ⟨made, (only made).mpr rfl⟩ isAllowed
  comes other makes := (only other).mp makes ▸ comes

end Yielding

theorem connect_ok (graph after : Graph) (connection : Connection) :
    graph.connect connection = .ok after ↔
      (graph.Joins connection ∧ graph.target? connection.source = none) ∧
        after = graph.push connection := by
  rw [← objection_none_iff, connect]
  cases graph.objection? connection with
  | none => simp [eq_comm]
  | some error => simp

theorem connect_target (graph : Graph) (connection : Connection)
    (single : (graph.connections.map Connection.source).Nodup)
    (free : graph.target? connection.source = none) :
    (graph.push connection).target? = Wiring.join graph.target? connection :=
  target_represented _ _ (join_represented _ _ (graph.represents_target single) connection free)

theorem disconnect_pushed (graph : Graph) (connection : Connection)
    (free : graph.target? connection.source = none) :
    (graph.push connection).disconnect connection.source = some (connection, graph) := by
  have unused := (graph.target_none_iff _).mp free
  have others : ∀ earlier ∈ graph.connections, earlier.source ≠ connection.source :=
    fun earlier listed same => unused (same ▸ List.mem_map_of_mem listed)
  have found : (graph.connections ++ [connection]).find? (fun other =>
      other.source = connection.source) = some connection := by
    rw [List.find?_append, List.find?_eq_none.mpr (by simpa using others)]
    simp
  have erased : (graph.connections ++ [connection]).eraseP (fun other =>
      other.source = connection.source) = graph.connections := by
    rw [List.eraseP_append_right _ (by simpa using others)]
    simp
  simp [disconnect, push, found, erased]

theorem connect_yields (graph : Graph) (connection : Connection)
    (single : (graph.connections.map Connection.source).Nodup) :
    Yields (graph.connect connection = .ok ·)
      (graph.Joins connection ∧ graph.target? connection.source = none) fun after =>
        after.target? = Wiring.join graph.target? connection ∧
          after.disconnect connection.source = some (connection, graph) := by
  constructor
  · simp [connect_ok]
  · intro after connected
    obtain ⟨⟨_, free⟩, rfl⟩ := (graph.connect_ok after connection).mp connected
    exact ⟨graph.connect_target connection single free, graph.disconnect_pushed connection free⟩

theorem disconnect_yields (graph : Graph) (source : Endpoint)
    (single : (graph.connections.map Connection.source).Nodup) :
    Yields (graph.disconnect source = some ·) (∃ target, graph.target? source = some target)
      fun made => made.1.source = source ∧ graph.target? source = some made.1.target ∧
        made.2.target? = Wiring.cut graph.target? source := by
  constructor
  · simp [disconnect, target?]
  · intro made removed
    obtain ⟨first, leaves, rfl⟩ := Option.map_eq_some_iff.mp removed
    refine ⟨by simpa using List.find?_some leaves, ?_, target_represented _ _
      (cut_represented _ _ (graph.represents_target single) source)⟩
    rw [target?, leaves]
    rfl

theorem removeNode_yields (graph : Graph) (id : NodeId)
    (single : (graph.connections.map Connection.source).Nodup) :
    Yields (graph.removeNode id = some ·) (∃ node, graph.node? id = some node) fun made =>
      graph.node? id = some made.1 ∧ made.2.node? id = none ∧
        (∀ other ≠ id, made.2.node? other = graph.node? other) ∧
        made.2.target? = Wiring.isolate graph.target? id := by
  constructor
  · simp [removeNode]
  · intro made removed
    obtain ⟨node, stored, rfl⟩ := Option.map_eq_some_iff.mp removed
    refine ⟨stored, by simp [node?], fun other different => by simp [node?, different],
      target_represented _ _ (isolate_represented _ _ (graph.represents_target single) id)⟩

/-- A pin of the choice leads where the pin it comes from led, also where several connections leave one
pin. -/
theorem shifted_target (graph after : Graph) (id : NodeId) (index : Nat)
    (shifted : after.connections = graph.connections.filterMap (shiftPin id index)) :
    after.target? = Wiring.close graph.target? id index := by
  funext source
  -- What leaves the pin now is what left the other one, so the first of the one is the first of the other.
  have leaves (connection : Connection) :
      (shiftPin id index connection).any (fun moved => decide (moved.source = source)) =
        decide (connection.source = unshift id index source) := by
    rw [Bool.eq_iff_iff, Option.any_eq_true, decide_eq_true_iff]
    constructor
    · rintro ⟨moved, shifted, leaves⟩
      rw [(shiftPin_some id index connection moved shifted).1, of_decide_eq_true leaves]
    · intro leaves
      refine ⟨⟨source, connection.target⟩, ?_, decide_eq_true rfl⟩
      rw [← shiftPin_unshift id index source connection.target, ← leaves]
  simp only [target?, Wiring.close, shifted, List.find?_filterMap, leaves]
  cases found : graph.connections.find? fun connection =>
      connection.source = unshift id index source with
  | none => rfl
  | some first =>
      have leaves : first.source = unshift id index source := by simpa using List.find?_some found
      obtain ⟨_, target⟩ := first
      subst leaves
      simp only [Option.bind_some, shiftPin_unshift, Option.map_some]

def IsChoice (graph : Graph) (id : NodeId) : Prop :=
  ∃ node answers, graph.node? id = some node ∧ node.content = .choice answers

def HasAnswer (graph : Graph) (id : NodeId) (index : Nat) : Prop :=
  ∃ node answers, graph.node? id = some node ∧ node.content = .choice answers ∧
    index < answers.length

theorem isChoice_iff (graph : Graph) (id : NodeId) :
    graph.IsChoice id ↔ ∃ answers, graph.answers? id = .ok answers := by
  simp only [IsChoice, answers_ok_iff]
  exact exists_comm

theorem hasAnswer_iff (graph : Graph) (id : NodeId) (index : Nat) :
    graph.HasAnswer id index ↔ ∃ answers, graph.answers? id = .ok answers ∧ index < answers.length := by
  simp only [HasAnswer, answers_ok_iff, ← exists_and_right, and_assoc]
  exact exists_comm

theorem removeChoice_yields (graph : Graph) (id : NodeId) (index : Nat) :
    Yields (graph.removeChoice id index = .ok ·) (graph.HasAnswer id index) fun after =>
      after.target? = Wiring.close graph.target? id index := by
  simp only [hasAnswer_iff, removeChoice, bind, Except.bind]
  cases graph.answers? id with
  | error error => exact .refused (by simp) (by simp)
  | ok answers =>
      by_cases within : index < answers.length
      · exact .made _ (by simp [within, pure, Except.pure]; rfl) (by simpa using within)
          (graph.shifted_target _ id index rfl)
      · exact .refused (by simp [within, throw, throwThe, MonadExceptOf.throw])
          (by simpa using Nat.le_of_not_lt within)

theorem addChoice_free (graph : Graph) (id : NodeId) (answers : List (Option String))
    (sound : graph.Sound) (choice : graph.answers? id = .ok answers) :
    graph.target? ⟨id, answers.length⟩ = none := by
  rw [target_none_iff]
  intro used
  obtain ⟨connection, listed, leaves⟩ := List.mem_map.mp used
  obtain ⟨_, ⟨node, stored, within⟩, _⟩ := sound.joined connection listed
  obtain ⟨owner, found, content⟩ := graph.answers_ok id answers choice
  rw [leaves] at stored within
  rw [stored] at found
  cases found
  simp [Node.outputs, Node.kind, Content.kind, NodeKind.outputs, content] at within

theorem addChoice_yields (graph : Graph) (id : NodeId) (sound : graph.Sound) :
    Yields (graph.addChoice id = .ok ·) (graph.IsChoice id) fun made =>
      graph.target? ⟨id, made.1⟩ = none ∧ made.2.HasAnswer id made.1 ∧
        made.2.target? = graph.target? := by
  simp only [isChoice_iff, addChoice, bind, Except.bind]
  cases choice : graph.answers? id with
  | error error => exact .refused (by simp) (by simp)
  | ok answers =>
      obtain ⟨node, stored, _⟩ := graph.answers_ok id answers choice
      have longer : (graph.setContent id (.choice (answers ++ [none]))).HasAnswer id answers.length := by
        refine ⟨{ node with content := .choice (answers ++ [none]) }, _, ?_, rfl, by simp⟩
        simp only [node?] at stored ⊢
        simp [setContent, stored]
      exact .made (answers.length, graph.setContent id (.choice (answers ++ [none])))
        (by simp [pure, Except.pure]) (by simp)
        ⟨graph.addChoice_free id answers sound choice, longer, rfl⟩

theorem setChoiceKey_yields (graph : Graph) (id : NodeId) (index : Nat) (key : Option String) :
    Yields (graph.setChoiceKey id index key = .ok ·) (graph.HasAnswer id index) fun after =>
      after.target? = graph.target? := by
  simp only [hasAnswer_iff, setChoiceKey, bind, Except.bind]
  cases graph.answers? id with
  | error error => exact .refused (by simp) (by simp)
  | ok answers =>
      by_cases within : index < answers.length
      · exact .made (graph.setContent id (.choice (answers.set index key)))
          (by simp [within, pure, Except.pure]) (by simpa using within) rfl
      · exact .refused (by simp [within, throw, throwThe, MonadExceptOf.throw])
          (by simpa using Nat.le_of_not_lt within)

def NewName (board : Board) (name : String) : Prop :=
  Text.allBlank name = false ∧ name ∉ board.properties.map Property.name

theorem addProperty_yields (graph : Graph) (id : PropertyId) (name : String) (kind : Kind) :
    Yields (graph.addProperty id name kind = .ok ·) (NewName graph.board name) fun made =>
      made.2.target? = graph.target? := by
  simp only [NewName, ← named_none_iff, addProperty, Board.add, bind, Except.bind]
  cases Text.allBlank name with
  | true => exact .refused (by simp) (by simp)
  | false =>
      cases (graph.board.named? name).isSome with
      | true => exact .refused (by simp) (by simp)
      | false =>
          let added := Property.fresh id name kind
          exact .made (added, { graph with board := ⟨graph.board.properties ++ [added]⟩ })
            (by simp [added, pure, Except.pure]) (by simp) rfl

theorem removeProperty_yields (graph : Graph) (id : PropertyId) :
    Yields (graph.removeProperty id = some ·) (∃ property, graph.board.find? id = some property)
      fun made => made.2.target? = graph.target? := by
  constructor
  · simp [removeProperty, Board.remove]
  · intro made removed
    obtain ⟨_, _, rfl⟩ := Option.map_eq_some_iff.mp removed
    rfl

theorem renameProperty_yields (graph : Graph) (id : PropertyId) (name : String) :
    Yields (graph.renameProperty id name = .ok ·)
      (∃ property, graph.board.find? id = some property ∧ Text.allBlank name = false ∧
        (property.name = name ∨ NewName graph.board name))
      fun after => after.target? = graph.target? := by
  constructor
  · simp only [NewName, ← named_none_iff, renameProperty, Board.rename, bind, Except.bind]
    cases blank : Text.allBlank name with
    | true => simp
    | false =>
      cases graph.board.find? id with
      | none => simp
      | some found =>
        by_cases same : found.name = name <;> cases (graph.board.named? name).isSome <;>
          simp [same, pure, Except.pure]
  · intro after renamed
    simp only [renameProperty, bind, Except.bind] at renamed
    split at renamed
    · cases renamed
    · cases renamed
      rfl

theorem setValue_yields (graph : Graph) (id : PropertyId) (value : Value) :
    Yields (graph.setValue id value = .ok ·) (∃ property, graph.board.find? id = some property)
      fun after => after.target? = graph.target? := by
  simp only [setValue, Board.setValue, bind, Except.bind]
  cases graph.board.find? id with
  | none => exact .refused (by simp) (by simp)
  | some found =>
      exact .made { graph with board := graph.board.update id fun property => property.assign value }
        (by simp [pure, Except.pure]) (by simp) rfl

theorem reload_yields (graph : Graph) :
    Yields (Asset.ofText (Asset.new graph).toText = .ok ·)
      (graph.isReadable = true ∧ graph.IsFiled) fun asset => asset.graph.target? = graph.target? := by
  constructor
  · constructor
    · rintro ⟨asset, loaded⟩
      obtain ⟨filed, same⟩ := graph.loaded_reread asset loaded
      refine ⟨?_, filed⟩
      by_contra unreadable
      rw [Asset.ofText_unreadable graph unreadable] at loaded
      cases loaded
    · rintro ⟨readable, filed⟩
      exact ⟨_, Asset.ofText_filed graph readable filed⟩
  · intro asset loaded
    rw [(graph.loaded_reread asset loaded).2]
    rfl

/-- Each edit is made exactly where it is allowed; it changes the map of connections as it says, and no
further. -/
structure EditsWiring (σ : Type) (graph : Graph) : Prop where
  /-- A free output of one node is joined to an input of another. Cutting it again gives back the graph,
  with its connections in their order. -/
  connect : ∀ connection, Yields (graph.connect connection = .ok ·)
    (graph.Joins connection ∧ graph.target? connection.source = none) fun after =>
      after.target? = Wiring.join graph.target? connection ∧
        after.disconnect connection.source = some (connection, graph)
  disconnect : ∀ source, Yields (graph.disconnect source = some ·)
    (∃ target, graph.target? source = some target) fun made =>
      made.1.source = source ∧ graph.target? source = some made.1.target ∧
        made.2.target? = Wiring.cut graph.target? source
  removeNode : ∀ id, Yields (graph.removeNode id = some ·) (∃ node, graph.node? id = some node)
    fun made => graph.node? id = some made.1 ∧ made.2.node? id = none ∧
      (∀ other ≠ id, made.2.node? other = graph.node? other) ∧
      made.2.target? = Wiring.isolate graph.target? id
  removeChoice : ∀ id index, Yields (graph.removeChoice id index = .ok ·) (graph.HasAnswer id index)
    fun after => after.target? = Wiring.close graph.target? id index
  /-- The pin of a new answer is one of the choice from then on, and nothing left it before. -/
  addChoice : ∀ id, Yields (graph.addChoice id = .ok ·) (graph.IsChoice id) fun made =>
    graph.target? ⟨id, made.1⟩ = none ∧ made.2.HasAnswer id made.1 ∧ made.2.target? = graph.target?
  setChoiceKey : ∀ id index key, Yields (graph.setChoiceKey id index key = .ok ·)
    (graph.HasAnswer id index) fun after => after.target? = graph.target?
  addNode : ∀ node, (graph.addNode node).2.target? = graph.target?
  addProperty : ∀ id name kind, Yields (graph.addProperty id name kind = .ok ·)
    (NewName graph.board name) fun made => made.2.target? = graph.target?
  removeProperty : ∀ id, Yields (graph.removeProperty id = some ·)
    (∃ property, graph.board.find? id = some property) fun made => made.2.target? = graph.target?
  renameProperty : ∀ id name, Yields (graph.renameProperty id name = .ok ·)
    (∃ property, graph.board.find? id = some property ∧ Text.allBlank name = false ∧
      (property.name = name ∨ NewName graph.board name)) fun after => after.target? = graph.target?
  setValue : ∀ id value, Yields (graph.setValue id value = .ok ·)
    (∃ property, graph.board.find? id = some property) fun after => after.target? = graph.target?
  bindHandles : ∀ host : Host σ, (graph.bindHandles host).2.target? = graph.target?
  reload : Yields (Asset.ofText (Asset.new graph).toText = .ok ·)
    (graph.isReadable = true ∧ graph.IsFiled) fun asset => asset.graph.target? = graph.target?

theorem sound_editsWiring (graph : Graph) (sound : graph.Sound) : graph.EditsWiring σ where
  connect connection := graph.connect_yields connection sound.single
  disconnect source := graph.disconnect_yields source sound.single
  removeNode id := graph.removeNode_yields id sound.single
  removeChoice := graph.removeChoice_yields
  addChoice id := graph.addChoice_yields id sound
  setChoiceKey := graph.setChoiceKey_yields
  addNode _ := rfl
  addProperty := graph.addProperty_yields
  removeProperty := graph.removeProperty_yields
  renameProperty := graph.renameProperty_yields
  setValue := graph.setValue_yields
  bindHandles _ := rfl
  reload := graph.reload_yields

/-- The connections of an authored graph are a map from outputs to inputs, and each edit that is made of
the graph is the edit of that map. -/
theorem authored_wiring (table : String) (edits : List (Edit σ)) :
    Represents (authored table edits).connections (authored table edits).target? ∧
      (authored table edits).EditsWiring σ :=
  ⟨represents_target _ (authored_sound table edits).single,
    sound_editsWiring _ (authored_sound table edits)⟩

def parting : List (Edit Unit) :=
  [.addNode (.of .start), .addNode (.choice ["stay", "go", "run"]), .addNode (.line "bye"),
    .link 1 0 2, .link 2 1 3, .link 2 2 3]

/-- The line can be taken out, and with it goes what led to it; the second answer can be taken out, and the
third one moves to its pin; the first one can be joined to the line, and not to the start node. -/
theorem authored_wiring_demo :
    let graph := authored "tale" parting
    Represents [.flow 1 0 2, .flow 2 1 3, .flow 2 2 3] graph.target? ∧
      (∃ node after, graph.removeNode 3 = some (node, after) ∧ node.content = .line ⟨some "bye", none⟩ ∧
        after.node? 3 = none ∧ after.target? ⟨2, 1⟩ = none ∧ after.target? ⟨1, 0⟩ = some ⟨2, 0⟩) ∧
      (∃ after, graph.removeChoice 2 1 = .ok after ∧ after.target? ⟨2, 1⟩ = some ⟨3, 0⟩ ∧
        after.target? ⟨2, 2⟩ = none) ∧
      (∃ after, graph.connect (.flow 2 0 3) = .ok after ∧ after.target? ⟨2, 0⟩ = some ⟨3, 0⟩) ∧
      ∀ after, graph.connect (.flow 2 0 1) ≠ .ok after := by
  intro graph
  obtain ⟨represents, edits⟩ := authored_wiring "tale" parting
  have choice : graph.node? 2 = some ⟨2, ⟨0, 0⟩, .choice [some "stay", some "go", some "run"]⟩ := by rfl
  have line : graph.node? 3 = some ⟨3, ⟨0, 0⟩, .line ⟨some "bye", none⟩⟩ := by rfl
  refine ⟨represents, ?_, ?_, ?_, ?_⟩
  · obtain ⟨⟨node, after⟩, removed⟩ := (edits.removeNode 3).made_iff.mpr ⟨_, line⟩
    obtain ⟨stored, gone, _, wiring⟩ := (edits.removeNode 3).comes _ removed
    obtain rfl : _ = node := Option.some.inj (line.symm.trans stored)
    exact ⟨_, after, removed, rfl, gone, by rw [wiring]; rfl, by rw [wiring]; rfl⟩
  · obtain ⟨after, removed⟩ := (edits.removeChoice 2 1).made_iff.mpr ⟨_, _, choice, rfl, by decide⟩
    have wiring := (edits.removeChoice 2 1).comes after removed
    exact ⟨after, removed, by rw [wiring]; rfl, by rw [wiring]; rfl⟩
  · have allowed : graph.Joins (.flow 2 0 3) ∧ graph.target? ⟨2, 0⟩ = none :=
      ⟨⟨by decide, ⟨_, choice, by decide⟩, _, line, by decide⟩, by rfl⟩
    obtain ⟨after, connected⟩ := (edits.connect (.flow 2 0 3)).made_iff.mpr allowed
    obtain ⟨wiring, _⟩ := (edits.connect (.flow 2 0 3)).comes after connected
    exact ⟨after, connected, by rw [wiring]; rfl⟩
  · intro after connected
    obtain ⟨⟨_, _, start, stored, within⟩, _⟩ :=
      (edits.connect (.flow 2 0 1)).made_iff.mp ⟨after, connected⟩
    cases stored
    exact absurd within (by decide)

end Graph

end Dialogue

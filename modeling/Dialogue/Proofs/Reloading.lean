import Dialogue.Proofs.KeyedLaws
import Dialogue.Proofs.Rereading
import Dialogue.Storage.Asset
/-!
Graphs and assets after being saved and loaded again. A graph is refused if some value or position has no
text that can be read, or if an id or a pin does not fit; otherwise it comes back with the same nodes,
connections and properties, and only values, positions and the next id may change.
-/
namespace Dialogue

open Json

namespace Property

def isReadable (property : Property) : Bool := property.value.isReadable

def reread (property : Property) : Property := { property with value := property.value.reread }

theorem toJson_spelled (property : Property) : Spelled property.toJson := by
  apply spelled_next _ _ _ (spelled_ofText _)
  apply spelled_next _ _ _ (spelled_ofText _)
  apply spelled_next _ _ _ (spelled_ofText _)
  exact spelled_last _ _ property.value.toJson_spelled

theorem ofJson_toJson (property : Property) :
    ofJson? property.toJson = if property.isReadable then some property.reread else none := by
  rw [ofJson?, toJson, record_record]
  · change (text? (ofText property.id)).bind (fun id => (text? (ofText property.name)).bind
      fun name => (Kind.ofJson? property.kind.toJson).bind fun kind =>
        (Value.ofJson? property.value.toJson).bind fun value =>
          some (Property.mk id name kind value)) = _
    rw [text_ofText, text_ofText, Kind.ofJson_toJson, Value.ofJson_toJson]
    unfold isReadable reread
    cases property.value.isReadable <;> rfl
  · exact property.toJson_spelled
  · rfl
  · decide

end Property

namespace Board

theorem toJson_spelled (board : Board) : Spelled board.toJson :=
  spelled_ofList _ _ Property.toJson_spelled

theorem ofJson_toJson (board : Board) :
    ofJson? board.toJson =
      if board.values.all Value.isReadable then some (board.mapValues Value.reread) else none := by
  have every : board.values.all Value.isReadable = board.properties.all Property.isReadable :=
    List.all_map
  rw [ofJson?, toJson, list_ofList _ _ _ _ _ fun property _ => property.ofJson_toJson, every]
  cases board.properties.all Property.isReadable <;> rfl

end Board

namespace Endpoint

def fits (endpoint : Endpoint) : Bool := endpoint.node < idBound && endpoint.pin < countBound

theorem toJson_spelled (endpoint : Endpoint) : Spelled endpoint.toJson := by
  apply spelled_next _ _ _ (spelled_ofNat _)
  exact spelled_last _ _ (spelled_ofNat _)

theorem ofJson_toJson (endpoint : Endpoint) :
    ofJson? endpoint.toJson = if endpoint.fits then some endpoint else none := by
  rw [ofJson?, toJson, record_record]
  · change (natBelow? idBound (ofNat endpoint.node)).bind (fun node =>
      (natBelow? countBound (ofNat endpoint.pin)).bind fun pin =>
        some (Endpoint.mk node pin)) = _
    rw [natBelow_ofNat, natBelow_ofNat]
    unfold fits
    by_cases node : endpoint.node < idBound <;> by_cases pin : endpoint.pin < countBound <;>
      simp [node, pin]
  · exact endpoint.toJson_spelled
  · rfl
  · decide

end Endpoint

namespace Connection

def fits (connection : Connection) : Bool := connection.source.fits && connection.target.fits

theorem toJson_spelled (connection : Connection) : Spelled connection.toJson := by
  apply spelled_next _ _ _ connection.source.toJson_spelled
  exact spelled_last _ _ connection.target.toJson_spelled

theorem ofJson_toJson (connection : Connection) :
    ofJson? connection.toJson = if connection.fits then some connection else none := by
  rw [ofJson?, toJson, record_record]
  · change (Endpoint.ofJson? connection.source.toJson).bind (fun source =>
      (Endpoint.ofJson? connection.target.toJson).bind fun target =>
        some (Connection.mk source target)) = _
    rw [Endpoint.ofJson_toJson, Endpoint.ofJson_toJson]
    unfold fits
    cases connection.source.fits <;> cases connection.target.fits <;> rfl
  · exact connection.toJson_spelled
  · rfl
  · decide

end Connection

namespace Graph

theorem key_digits (id : NodeId) :
    key? (Whole.digits id) = if id < idBound then some id else none := by
  simp only [key?, Whole.natural_digits, Option.filter_some]
  simp

theorem nodes_written (nodes : Keyed NodeId Node) :
    nodes? (.object (nodes.entries.map fun entry => (Whole.digits entry.1, entry.2.toJson))) =
      if nodes.entries.all (fun entry =>
          entry.1 < idBound && (entry.2.id < idBound && entry.2.isReadable)) then
        some (nodes.mapValues Node.reread)
      else none := by
  rw [nodes?, mapM_written _ _
    (fun entry => entry.1 < idBound && (entry.2.id < idBound && entry.2.isReadable))
    fun entry => (entry.1, entry.2.reread)]
  · -- The nodes are filed again in the order in which they were written.
    have again : Keyed.ofList (nodes.entries.map fun entry => (entry.1, entry.2.reread)) =
        nodes.mapValues Node.reread := Keyed.ofList_entries (nodes.mapValues Node.reread)
    rw [← again]
    cases nodes.entries.all _ <;> rfl
  · intro entry _
    change (key? (Whole.digits entry.1)).bind (fun key =>
      (Node.ofJson? entry.2.toJson).bind fun node => some (key, node)) = _
    rw [key_digits, Node.ofJson_toJson]
    by_cases below : entry.1 < idBound <;> by_cases own : entry.2.id < idBound <;>
      cases entry.2.isReadable <;> simp [below, own]

def isReadable (graph : Graph) : Bool :=
  graph.nodes.entries.all (fun entry =>
      entry.1 < idBound && (entry.2.id < idBound && entry.2.isReadable)) &&
    graph.connections.all Connection.fits && graph.board.values.all Value.isReadable &&
    graph.nextId < idBound

/-- The graph as it comes back. -/
def reread (graph : Graph) : Graph :=
  { graph with
    nodes := graph.nodes.mapValues Node.reread
    board := graph.board.mapValues Value.reread
    nextId := max graph.nextId (idAfter graph.nodes.keys) }

theorem toJson_spelled (graph : Graph) : Spelled graph.toJson := by
  have nodes : Spelled (.object (graph.nodes.entries.map fun entry =>
      (Whole.digits entry.1, entry.2.toJson))) := by
    apply Spelled.object <;> intro field stands
    · obtain ⟨entry, _, rfl⟩ := List.mem_map.mp stands
      exact string_digits _ (Whole.digits_isDigit _)
    · obtain ⟨entry, _, rfl⟩ := List.mem_map.mp stands
      exact entry.2.toJson_spelled
  apply spelled_next _ _ _ (spelled_ofText _)
  apply spelled_next _ _ _ nodes
  apply spelled_next _ _ _ (spelled_ofList _ _ Connection.toJson_spelled)
  apply spelled_next _ _ _ graph.board.toJson_spelled
  exact spelled_last _ _ (spelled_ofNat _)

theorem parts_toJson (graph : Graph) :
    parts? graph.toJson = if graph.isReadable then some graph.reread else none := by
  have spelled := graph.toJson_spelled
  rw [parts?, toJson, record_record]
  · change (nodes? (.object (graph.nodes.entries.map fun entry =>
        (Whole.digits entry.1, entry.2.toJson)))).bind (fun nodes =>
      (text? (ofText graph.table)).bind fun table =>
      (list? Connection.ofJson? (ofList Connection.toJson graph.connections)).bind
        fun connections =>
      (Board.ofJson? graph.board.toJson).bind fun board =>
      (natBelow? idBound (ofNat graph.nextId)).bind fun nextId =>
        some (Graph.mk table nodes connections board (max nextId (idAfter nodes.keys)))) = _
    have keys : (graph.nodes.mapValues Node.reread).keys = graph.nodes.keys :=
      graph.nodes.keys_mapWithKey _
    rw [nodes_written, text_ofText, Board.ofJson_toJson, natBelow_ofNat,
      list_ofList _ _ _ id _ fun connection _ => connection.ofJson_toJson]
    unfold isReadable reread
    cases graph.nodes.entries.all (fun entry =>
        entry.1 < idBound && (entry.2.id < idBound && entry.2.isReadable)) <;>
      cases graph.connections.all Connection.fits <;>
      cases graph.board.values.all Value.isReadable <;>
      by_cases next : graph.nextId < idBound <;> simp [next, keys]
  · exact spelled
  · rfl
  · decide

theorem misfiled_none_iff (graph : Graph) : graph.misfiled? = none ↔ graph.IsFiled := by
  simp only [misfiled?, IsFiled, Option.map_eq_none_iff, List.find?_eq_none, decide_eq_true_eq, not_not]
  exact forall₂_congr fun _ _ => eq_comm

theorem reread_misfiled (graph : Graph) : graph.reread.misfiled? = graph.misfiled? := by
  simp only [misfiled?, reread, Keyed.mapValues, Keyed.mapWithKey, List.find?_map, Option.map_map]
  rfl

theorem reread_filed (graph : Graph) (filed : graph.IsFiled) : graph.reread.IsFiled := by
  rw [← misfiled_none_iff] at filed ⊢
  rw [reread_misfiled, filed]

/-- What comes of a graph that is saved and loaded again. -/
def reloaded (graph : Graph) : Except ReadError Graph :=
  if graph.isReadable then
    match graph.misfiled? with
    | some (key, id) => .error (.misfiled key id)
    | none => .ok graph.reread
  else .error .malformed

theorem ofJson_toJson (graph : Graph) : ofJson graph.toJson = graph.reloaded := by
  rw [ofJson, parts_toJson, reloaded]
  cases graph.isReadable with
  | false => rfl
  | true =>
      simp only [if_true, ReadError.ofOption, bind, Except.bind, reread_misfiled]
      cases graph.misfiled? <;> rfl

theorem reloaded_ok_iff (graph loaded : Graph) :
    graph.reloaded = .ok loaded ↔
      graph.isReadable = true ∧ graph.IsFiled ∧ loaded = graph.reread := by
  rw [← misfiled_none_iff, reloaded]
  cases graph.isReadable <;> cases graph.misfiled? <;> simp [eq_comm]

end Graph

namespace Asset

theorem toJson_spelled (asset : Asset) : Spelled asset.toJson := by
  apply spelled_next _ _ _ (spelled_ofNat _)
  exact spelled_last _ _ asset.graph.toJson_spelled

theorem ofJson_toJson (graph : Graph) : ofJson (new graph).toJson = graph.reloaded.map new := by
  have version : versionOfJson (ofNat currentVersion) = .ok currentVersion := by
    rw [versionOfJson, natBelow_ofNat, if_pos (by decide)]
    rfl
  cases loads : graph.reloaded <;>
    simp [toJson, new, record, ofJson, ofMembers, Lexeme.read_write, version,
      Graph.ofJson_toJson, loads, Except.map]

/-- Saving a graph and loading it either gives the graph back, or is refused for its form or for a node
under an id that is not its own. -/
theorem ofText_toText (graph : Graph) :
    ofText (new graph).toText = (graph.reloaded.map new).mapError .data := by
  have read := read_pretty _ (new graph).toJson_spelled
  have loaded : readText ofJson (new graph).toText = ofJson (new graph).toJson := by
    rw [readText, toText, toPretty, String.toList_ofList, read, Document.read]
    cases ofJson (new graph).toJson <;> rfl
  rw [ofText, loaded, ofJson_toJson]
  cases graph.reloaded <;> rfl

/-- A graph that can be read comes back if its nodes are filed under their own ids. -/
theorem ofText_filed (graph : Graph) (readable : graph.isReadable = true) (filed : graph.IsFiled) :
    ofText (new graph).toText = .ok (new graph.reread) := by
  rw [ofText_toText, (graph.reloaded_ok_iff _).mpr ⟨readable, filed, rfl⟩]
  rfl

theorem ofText_unreadable (graph : Graph) (unreadable : graph.isReadable ≠ true) :
    ofText (new graph).toText = .error (.data .malformed) := by
  rw [ofText_toText, Graph.reloaded, if_neg unreadable]
  rfl

end Asset

theorem Graph.loaded_reread (graph : Graph) (asset : Asset)
    (loaded : Asset.ofText (Asset.new graph).toText = .ok asset) :
    graph.IsFiled ∧ asset.graph = graph.reread := by
  rw [Asset.ofText_toText] at loaded
  cases outcome : graph.reloaded with
  | error error =>
      rw [outcome] at loaded
      cases loaded
  | ok found =>
      obtain ⟨-, filed, same⟩ := (graph.reloaded_ok_iff found).mp outcome
      rw [outcome] at loaded
      cases loaded
      exact ⟨filed, same⟩

end Dialogue

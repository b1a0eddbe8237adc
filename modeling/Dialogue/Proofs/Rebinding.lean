import Dialogue.Proofs.RoundTrip
import Dialogue.Terminal.Program
/-!
Handles over a save. A saved graph knows its handles only by their keys; a host that still has the objects
gives every handle back that was its own.
-/
namespace Dialogue

variable {σ : Type}

def Value.isBound : Value → Bool
  | handle h => !h.isDetached
  | _ => false

namespace Host

/-- The handle is the host's own, or a detached one under a key that the host does not have. -/
def Settles (host : Host σ) (handle : Handle) : Prop :=
  host.handle? handle.key = some handle ∨
    handle.isDetached = true ∧ host.handle? handle.key = none

theorem handle_bound (host : Host σ) (key : String) (handle : Handle)
    (given : host.handle? key = some handle) : handle.isDetached = false := by
  obtain ⟨stored, _, rfl⟩ := Option.map_eq_some_iff.mp given
  rfl

theorem rebind_settled (host : Host σ) (handle : Handle) (settled : host.Settles handle) :
    host.rebind (.detached handle.key) = handle := by
  change (host.handle? handle.key).getD (.detached handle.key) = handle
  obtain ⟨key, binding⟩ := handle
  rcases settled with own | ⟨detached, unknown⟩
  · rw [own]
    rfl
  · rw [unknown]
    obtain rfl : binding = none := by simpa [Handle.isDetached] using detached
    rfl

theorem canBind_settled (host : Host σ) (handle : Handle) (settled : host.Settles handle) :
    host.canBind (.detached handle.key) = !handle.isDetached := by
  have known : host.canBind (.detached handle.key) = (host.handle? handle.key).isSome := by
    simp [canBind, handle?, Handle.isDetached, Handle.detached]
  rw [known]
  rcases settled with own | ⟨detached, unknown⟩
  · rw [own, host.handle_bound handle.key handle own]
    rfl
  · rw [unknown, detached]
    rfl

theorem rebindValue_settled (host : Host σ) (value : Value)
    (settled : ∀ handle, value = .handle handle → host.Settles handle) :
    host.rebindValue value.detached = value := by
  cases value with
  | handle handle => exact congrArg Value.handle (host.rebind_settled handle (settled handle rfl))
  | empty | text _ | integer _ | real _ | boolean _ => rfl

theorem countBindable_detached (host : Host σ) (values : List Value)
    (settled : ∀ handle, .handle handle ∈ values → host.Settles handle) :
    host.countBindable (values.map Value.detached) = values.countP Value.isBound := by
  rw [countBindable, List.countP_map]
  refine List.countP_congr fun value member => ?_
  cases value with
  | handle handle =>
      have bindable := host.canBind_settled handle (settled handle member)
      simp [Value.detached, Value.isBound, bindable]
  | empty | text _ | integer _ | real _ | boolean _ => rfl

end Host

/-- Binding makes up for what the text leaves out. -/
theorem Graph.bind_reread (host : Host σ) (graph : Graph) (finite : graph.Finite)
    (exact : graph.Exact)
    (settled : ∀ handle, .handle handle ∈ graph.values → host.Settles handle) :
    graph.reread.bindHandles host =
      (graph.values.countP Value.isBound,
        { graph with nextId := max graph.nextId (idAfter graph.nodes.keys) }) := by
  have count : host.countBindable (graph.mapValues Value.detached).values =
      graph.values.countP Value.isBound := by
    rw [graph.values_mapValues, host.countBindable_detached graph.values settled]
  have restored : (graph.mapValues Value.detached).mapValues host.rebindValue = graph :=
    graph.mapValues_undone fun value held =>
      host.rebindValue_settled value fun handle same => settled handle (same ▸ held)
  rw [graph.reread_detached finite exact]
  exact Prod.ext count (congrArg (fun kept : Graph =>
    { kept with nextId := max graph.nextId (idAfter graph.nodes.keys) }) restored)

/-- A graph that is saved, loaded and bound again. Each of its handles was the host's own, or detached under
a key the host does not have; so no node, connection or property differs from what was saved, and as many
handles are bound again as were bound before. -/
theorem Asset.rebinding_restores (host : Host σ) (graph : Graph) (filed : graph.IsFiled)
    (bounded : graph.Bounded) (finite : graph.Finite) (exact : graph.Exact)
    (settled : ∀ handle, .handle handle ∈ graph.values → host.Settles handle) :
    ∃ loaded rebound, Asset.ofText (Asset.new graph).toText = .ok loaded ∧
      loaded.graph.bindHandles host = (graph.values.countP Value.isBound, rebound) ∧
      rebound.nodes = graph.nodes ∧ rebound.connections = graph.connections ∧
      rebound.board = graph.board ∧ rebound.table = graph.table := by
  have loads : Asset.ofText (Asset.new graph).toText = .ok (Asset.new graph.reread) :=
    Asset.ofText_filed graph ((graph.isReadable_iff filed).mpr ⟨bounded, finite⟩) filed
  exact ⟨_, _, loads, graph.bind_reread host finite exact settled, rfl, rfl, rfl, rfl⟩

def Graph.cellar : Graph :=
  let door := Value.handle ⟨"door", some ⟨0, "Machine"⟩⟩
  let lamp := Value.handle ⟨"lamp", some ⟨1, "Machine"⟩⟩
  let ghost := Value.handle (.detached "ghost")
  { table := "Cellar"
    nodes := file [
      (1, .of .start),
      (2, .of (.condition ⟨[⟨some "d", .call "Near" [lamp, ghost, .real 0.5]⟩,
        ⟨some "d", .compare .equals door⟩], .any⟩)),
      (3, .of (.action ⟨[⟨some "g", .mutate .set lamp⟩, ⟨some "d", .call "Open" [door]⟩]⟩))]
    connections := [.flow 1 0 2, .flow 2 0 3]
    board := ⟨[⟨"d", "door", .handle, door⟩, ⟨"g", "ghost", .handle, ghost⟩]⟩
    nextId := 4 }

theorem Asset.rebinding_restores_demo :
    let doors := (Host.empty.insert Terminal.machineType "door" .off).2
    let host := (doors.insert Terminal.machineType "lamp" .off).2
    Graph.cellar.IsFiled ∧ ∃ loaded rebound,
      Asset.ofText (Asset.new Graph.cellar).toText = .ok loaded ∧
      loaded.graph.bindHandles host = (5, rebound) ∧ rebound.nodes = Graph.cellar.nodes ∧
      rebound.board = Graph.cellar.board := by
  intro doors host
  have filed : Graph.cellar.IsFiled := by
    decide
  have bounded : Graph.cellar.Bounded := by
    constructor <;> decide
  let door : Handle := ⟨"door", some ⟨0, "Machine"⟩⟩
  let lamp : Handle := ⟨"lamp", some ⟨1, "Machine"⟩⟩
  let ghost : Handle := .detached "ghost"
  have values : Graph.cellar.values = [.handle door, .handle ghost, .handle lamp, .handle ghost,
    .real 0.5, .handle door, .handle lamp, .handle door] := rfl
  have reals (x : Float) (member : Value.real x ∈ Graph.cellar.values) : x = 0.5 := by
    simpa [values] using member
  have finite : Graph.cellar.Finite := by
    constructor
    · intro x member
      rw [reals x member]
      decide +kernel
    · decide +kernel
  have exact : Graph.cellar.Exact := by
    constructor
    · intro x member _
      rw [reals x member]
      decide +kernel
    · decide +kernel
  have settled (handle : Handle) (member : .handle handle ∈ Graph.cellar.values) :
      host.Settles handle := by
    have known : handle = door ∨ handle = lamp ∨ handle = ghost := by
      simp only [values, List.mem_cons, Value.handle.injEq, reduceCtorEq, List.not_mem_nil] at member
      tauto
    rcases known with rfl | rfl | rfl
    · exact Or.inl rfl
    · exact Or.inl rfl
    · exact Or.inr ⟨rfl, rfl⟩
  obtain ⟨loaded, rebound, read, bound, nodes, _, board, _⟩ :=
    Asset.rebinding_restores host Graph.cellar filed bounded finite exact settled
  exact ⟨filed, loaded, rebound, read, bound, nodes, board⟩

end Dialogue

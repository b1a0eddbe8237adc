import Dialogue.Graph
import Dialogue.Proofs.Locations
import Dialogue.Storage.Asset
/-!
Binding the handles of a graph to a host. Every detached handle whose key the host has is given the current
object of the key, at whatever place it is; nothing else changes, and the text of the graph does not either.
-/
namespace Dialogue

open Json

variable {σ : Type}

namespace Host

def replacement? (host : Host σ) : Value → Option Handle
  | .handle handle => if handle.isDetached then host.handle? handle.key else none
  | _ => none

theorem replacement_iff (host : Host σ) (value : Value) (current : Handle) :
    host.replacement? value = some current ↔
      ∃ key, value = .handle (.detached key) ∧ host.handle? key = some current := by
  constructor
  · intro found
    cases value with
    | handle handle =>
        obtain ⟨key, binding⟩ := handle
        cases binding with
        | none => exact ⟨key, rfl, found⟩
        | some binding => cases found
    | empty | text _ | integer _ | real _ | boolean _ => cases found
  · rintro ⟨key, rfl, given⟩
    exact given

theorem rebindValue_eq (host : Host σ) (value : Value) :
    host.rebindValue value = ((host.replacement? value).map Value.handle).getD value := by
  cases value with
  | handle handle =>
      simp only [rebindValue, rebind, replacement?]
      split
      · cases host.handle? handle.key <;> rfl
      · rfl
  | empty | text _ | integer _ | real _ | boolean _ => rfl

theorem countBindable_eq (host : Host σ) (values : List Value) :
    host.countBindable values = values.countP fun value => (host.replacement? value).isSome := by
  apply List.countP_congr
  intro value _
  cases value with
  | handle handle => cases detached : handle.isDetached <;> simp [canBind, replacement?, handle?, detached]
  | empty | text _ | integer _ | real _ | boolean _ => rfl

theorem replacement_rebound (host : Host σ) (value : Value) :
    host.replacement? (host.rebindValue value) = none := by
  rw [host.rebindValue_eq value]
  cases found : host.replacement? value with
  | none => exact found
  | some current =>
      obtain ⟨key, _, given⟩ := (host.replacement_iff value current).mp found
      obtain ⟨stored, _, rfl⟩ := Option.map_eq_some_iff.mp given
      rfl

theorem toJson_rebound (host : Host σ) (value : Value) :
    (host.rebindValue value).toJson = value.toJson := by
  rw [host.rebindValue_eq value]
  cases found : host.replacement? value with
  | none => rfl
  | some current =>
      obtain ⟨key, rfl, given⟩ := (host.replacement_iff value current).mp found
      obtain ⟨stored, _, rfl⟩ := Option.map_eq_some_iff.mp given
      rfl

end Host

/-! Values that are written alike are so wherever they are kept. -/

section Written

variable {f : Value → Value}

theorem ofList_changed {α : Type} (write : α → Json) (change : α → α)
    (alike : ∀ item, write (change item) = write item) (items : List α) :
    ofList write (items.map change) = ofList write items := by
  rw [ofList, List.map_map]
  exact congrArg Json.array (List.map_congr_left fun item _ => alike item)

theorem callToJson_mapped (alike : ∀ value, (f value).toJson = value.toJson) (operation : String)
    (arguments : List Value) :
    callToJson operation (arguments.map f) = callToJson operation arguments := by
  rw [callToJson, ofList_changed Value.toJson f alike]
  rfl

theorem Test.toJson_mapValues (alike : ∀ value, (f value).toJson = value.toJson) (test : Test) :
    (test.mapValues f).toJson = test.toJson := by
  cases test with
  | unset => rfl
  | compare comparator operand => simp only [mapValues, toJson, alike]
  | call operation arguments => exact callToJson_mapped alike operation arguments

theorem Command.toJson_mapValues (alike : ∀ value, (f value).toJson = value.toJson)
    (command : Command) : (command.mapValues f).toJson = command.toJson := by
  cases command with
  | unset => rfl
  | mutate mutation operand => simp only [mapValues, toJson, alike]
  | call operation arguments => exact callToJson_mapped alike operation arguments

theorem Content.toJson_mapValues (alike : ∀ value, (f value).toJson = value.toJson)
    (content : Content) : (content.mapValues f).toJson = content.toJson := by
  cases content with
  | start | line _ | choice _ => rfl
  | condition test =>
      have clause (clause : Clause) :
          Clause.toJson { clause with test := clause.test.mapValues f } = clause.toJson := by
        simp only [Clause.toJson, Test.toJson_mapValues alike]
      simp only [mapValues, toJson, Condition.toJson, ofList_changed _ _ clause]
  | action change =>
      have effect (effect : Effect) :
          Effect.toJson { effect with command := effect.command.mapValues f } = effect.toJson := by
        simp only [Effect.toJson, Command.toJson_mapValues alike]
      simp only [mapValues, toJson, Action.toJson, ofList_changed _ _ effect]

theorem Board.toJson_mapValues (alike : ∀ value, (f value).toJson = value.toJson) (board : Board) :
    (board.mapValues f).toJson = board.toJson := by
  apply ofList_changed Property.toJson
  intro property
  simp only [Property.toJson, alike]

theorem Graph.toJson_mapValues (alike : ∀ value, (f value).toJson = value.toJson) (graph : Graph) :
    (graph.mapValues f).toJson = graph.toJson := by
  simp only [mapValues, toJson, Keyed.mapValues, Keyed.mapWithKey, List.map_map, Function.comp_def,
    Node.toJson, Content.toJson_mapValues alike, Board.toJson_mapValues alike]

end Written

namespace Graph

/-- At the place there is a detached handle, and of its key the host has the given handle now. -/
def Awaits (graph : Graph) (host : Host σ) (place : Location) (current : Handle) : Prop :=
  ∃ key, graph.valueAt? place = some (.handle (.detached key)) ∧ host.handle? key = some current

theorem awaits_iff (graph : Graph) (host : Host σ) (place : Location) (current : Handle) :
    graph.Awaits host place current ↔
      ∃ value, graph.valueAt? place = some value ∧ host.replacement? value = some current := by
  simp only [host.replacement_iff]
  constructor
  · rintro ⟨key, held, given⟩
    exact ⟨_, held, key, rfl, given⟩
  · rintro ⟨_, held, key, rfl, given⟩
    exact ⟨key, held, given⟩

theorem countBindable_places (graph : Graph) (host : Host σ) : ∃ places : Finset Location,
    host.countBindable graph.values = places.card ∧
      ∀ place, place ∈ places ↔ ∃ current, graph.Awaits host place current := by
  obtain ⟨places, count, counted⟩ :=
    graph.placed.count fun value => (host.replacement? value).isSome
  refine ⟨places, by rw [host.countBindable_eq, count], fun place => ?_⟩
  simp only [counted, awaits_iff, Option.isSome_iff_exists]
  constructor
  · rintro ⟨value, held, current, given⟩
    exact ⟨current, value, held, given⟩
  · rintro ⟨current, value, held, given⟩
    exact ⟨value, held, current, given⟩

/-- Nothing is left to be bound where all that could be has been. -/
theorem bindHandles_again (graph : Graph) (host : Host σ) :
    (graph.mapValues host.rebindValue).bindHandles host =
      (0, graph.mapValues host.rebindValue) := by
  have settled (value : Value) :
      host.rebindValue (host.rebindValue value) = host.rebindValue value := by
    rw [host.rebindValue_eq (host.rebindValue value), host.replacement_rebound]
    rfl
  have nothing : host.countBindable (graph.mapValues host.rebindValue).values = 0 := by
    simp [graph.values_mapValues, host.countBindable_eq, host.replacement_rebound]
  have same : (graph.mapValues host.rebindValue).mapValues host.rebindValue =
      graph.mapValues host.rebindValue := by
    rw [graph.mapValues_mapValues]
    exact graph.mapValues_congr fun value _ => settled value
  exact Prod.ext nothing same

/-- Binding counts the places with a detached handle whose key the host has, and puts the current handle of
the key there. Every other value stays, and so does all that is not a value; binding again finds nothing to
do, and the graph is written as before. -/
theorem bindHandles_exact (graph : Graph) (host : Host σ) :
    ∃ count bound, graph.bindHandles host = (count, bound) ∧
      (∃ places : Finset Location, count = places.card ∧
        ∀ place, place ∈ places ↔ ∃ current, graph.Awaits host place current) ∧
      (∀ place current, graph.Awaits host place current →
        bound.valueAt? place = some (.handle current)) ∧
      (∀ place, (∀ current, ¬ graph.Awaits host place current) →
        bound.valueAt? place = graph.valueAt? place) ∧
      bound.mapValues (fun _ => .empty) = graph.mapValues (fun _ => .empty) ∧
      bound.bindHandles host = (0, bound) ∧
      bound.toJson = graph.toJson ∧
      (Asset.new bound).toText = (Asset.new graph).toText := by
  have written : (graph.mapValues host.rebindValue).toJson = graph.toJson :=
    graph.toJson_mapValues host.toJson_rebound
  refine ⟨_, _, rfl, graph.countBindable_places host, ?_, ?_, ?_, graph.bindHandles_again host,
    written, ?_⟩
  · intro place current awaits
    obtain ⟨value, held, given⟩ := (graph.awaits_iff host place current).mp awaits
    rw [graph.valueAt_mapValues, held, Option.map_some, host.rebindValue_eq, given]
    rfl
  · -- What is no detached handle under a known key has no replacement, whatever else it is.
    intro place idle
    rw [graph.valueAt_mapValues]
    cases held : graph.valueAt? place with
    | none => rfl
    | some value =>
        have kept : host.replacement? value = none := by
          refine Option.eq_none_iff_forall_ne_some.mpr fun current given => ?_
          exact idle current ((graph.awaits_iff host place current).mpr ⟨value, held, given⟩)
        rw [Option.map_some, host.rebindValue_eq, kept]
        rfl
  · rw [graph.mapValues_mapValues]
    rfl
  · simp only [Asset.toText, Asset.toJson, Asset.new, written]

/-- Of these handles only the first is bound: the second has a dead object, the third no object at all. -/
example :
    let lit := (Host.empty : Host Bool).insert ⟨"Lamp", id, some⟩ "lamp" true
    let dead : Handle := ⟨"lamp", some ⟨7, "Lamp"⟩⟩
    let calling (lamp : Handle) := ((new "Cellar").addNode (.of (.action
      ⟨[⟨none, .call "Light" [.handle lamp, .handle dead, .handle (.detached "ghost")]⟩]⟩))).2
    (calling (.detached "lamp")).bindHandles lit.2 = (1, calling lit.1) := by
  rfl

end Graph

end Dialogue

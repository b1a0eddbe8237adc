import Mathlib.Data.Finset.Card
import Mathlib.Data.List.Nodup
import Mathlib.Tactic.Choose
import Dialogue.Proofs.KeyedLaws
import Dialogue.Proofs.MappedValues
/-!
Where the values of a graph are kept. A place is a property of the board, or a row of a condition or an
action and there the operand or one of the arguments; no two values share a place.
-/
namespace Dialogue

inductive Slot where
  | operand
  | argument (index : Nat)
deriving DecidableEq

inductive Location where
  /-- The value of a property, by its position on the board. -/
  | property (index : Nat)
  /-- In the clause or the effect that a node has at the position. -/
  | row (node : NodeId) (index : Nat) (slot : Slot)
deriving DecidableEq

def Test.valueAt? : Test → Slot → Option Value
  | .compare _ operand, .operand => some operand
  | .call _ arguments, .argument index => arguments[index]?
  | _, _ => none

def Command.valueAt? : Command → Slot → Option Value
  | .mutate _ operand, .operand => some operand
  | .call _ arguments, .argument index => arguments[index]?
  | _, _ => none

def Content.valueAt? : Content → Nat → Slot → Option Value
  | .condition test, index, slot => test.clauses[index]?.bind fun clause => clause.test.valueAt? slot
  | .action change, index, slot => change.effects[index]?.bind fun effect => effect.command.valueAt? slot
  | _, _, _ => none

def Graph.valueAt? (graph : Graph) : Location → Option Value
  | .property index => graph.board.properties[index]?.map Property.value
  | .row id index slot => (graph.node? id).bind fun node => node.content.valueAt? index slot

section Mapped

variable {f : Value → Value}

theorem Test.valueAt_mapValues (test : Test) (slot : Slot) :
    (test.mapValues f).valueAt? slot = (test.valueAt? slot).map f := by
  cases test <;> cases slot <;> simp [mapValues, valueAt?]

theorem Command.valueAt_mapValues (command : Command) (slot : Slot) :
    (command.mapValues f).valueAt? slot = (command.valueAt? slot).map f := by
  cases command <;> cases slot <;> simp [mapValues, valueAt?]

theorem Content.valueAt_mapValues (content : Content) (index : Nat) (slot : Slot) :
    (content.mapValues f).valueAt? index slot = (content.valueAt? index slot).map f := by
  cases content with
  | start | line _ | choice _ => rfl
  | condition test =>
      simp only [mapValues, valueAt?, List.getElem?_map, Option.bind_map, Option.map_bind,
        Function.comp_def, Test.valueAt_mapValues]
  | action change =>
      simp only [mapValues, valueAt?, List.getElem?_map, Option.bind_map, Option.map_bind,
        Function.comp_def, Command.valueAt_mapValues]

theorem Graph.valueAt_mapValues (graph : Graph) (place : Location) :
    (graph.mapValues f).valueAt? place = (graph.valueAt? place).map f := by
  cases place with
  | property index =>
      simp only [valueAt?, mapValues, Board.mapValues, List.getElem?_map, Option.map_map,
        Function.comp_def]
  | row id index slot =>
      simp only [valueAt?, node?, mapValues, Keyed.find_mapValues, Option.bind_map, Option.map_bind,
        Function.comp_def, Content.valueAt_mapValues]

end Mapped

section Placed

variable {α ι κ μ : Type} {values others : List Value} {at? : κ → Option Value}

/-- The values are those that are found at the keys, and each of them at a key of its own. -/
def Placed (values : List Value) (at? : κ → Option Value) : Prop :=
  ∃ located : List (κ × Value), located.map Prod.snd = values ∧ (located.map Prod.fst).Nodup ∧
    ∀ key value, (key, value) ∈ located ↔ at? key = some value

theorem placed_nil : Placed [] fun _ : κ => none :=
  ⟨[], rfl, List.nodup_nil, by simp⟩

theorem placed_list (values : List Value) : Placed values fun index : Nat => values[index]? := by
  refine ⟨values.zipIdx.map Prod.swap, ?_, ?_, ?_⟩
  · rw [List.map_map]
    exact List.zipIdx_map_fst 0 values
  · rw [List.map_map, show Prod.fst ∘ Prod.swap = (Prod.snd : Value × Nat → Nat) from rfl,
      List.zipIdx_map_snd]
    exact List.nodup_range'
  · intro index value
    simp [List.mem_zipIdx_iff_getElem?]

/-- The same keys under other names. -/
theorem Placed.rename {namedAt? : μ → Option Value} (placed : Placed values at?) (name : κ → μ)
    (injective : name.Injective)
    (named : ∀ key value,
      namedAt? key = some value ↔ ∃ old, name old = key ∧ at? old = some value) :
    Placed values namedAt? := by
  obtain ⟨located, rfl, distinct, found⟩ := placed
  refine ⟨located.map (Prod.map name id), ?_, ?_, ?_⟩
  · simp [Function.comp_def]
  · rw [List.map_map, show Prod.fst ∘ Prod.map name id = name ∘ (Prod.fst : κ × Value → κ) from rfl,
      ← List.map_map]
    exact distinct.map injective
  · intro key value
    rw [named]
    constructor
    · intro member
      obtain ⟨⟨old, value⟩, kept, renamed⟩ := List.mem_map.mp member
      cases renamed
      exact ⟨old, rfl, (found old value).mp kept⟩
    · rintro ⟨old, rfl, kept⟩
      exact List.mem_map.mpr ⟨(old, value), (found old value).mpr kept, rfl⟩

theorem Placed.append {leftAt? rightAt? bothAt? : κ → Option Value} (left : Placed values leftAt?)
    (right : Placed others rightAt?) (apart : ∀ key, leftAt? key = none ∨ rightAt? key = none)
    (both : ∀ key, bothAt? key = (leftAt? key).or (rightAt? key)) :
    Placed (values ++ others) bothAt? := by
  obtain ⟨leftLocated, rfl, leftDistinct, leftFound⟩ := left
  obtain ⟨rightLocated, rfl, rightDistinct, rightFound⟩ := right
  refine ⟨leftLocated ++ rightLocated, List.map_append, ?_, ?_⟩
  · rw [List.map_append, List.nodup_append]
    refine ⟨leftDistinct, rightDistinct, ?_⟩
    -- A key of both lists would be found in both.
    rintro key first _ second rfl
    obtain ⟨⟨_, value⟩, kept, rfl⟩ := List.mem_map.mp first
    obtain ⟨⟨_, other⟩, otherKept, same⟩ := List.mem_map.mp second
    cases same
    rcases apart _ with absent | absent
    · exact nomatch absent.symm.trans ((leftFound _ _).mp kept)
    · exact nomatch absent.symm.trans ((rightFound _ _).mp otherKept)
  · intro key value
    rw [List.mem_append, leftFound, rightFound, both]
    rcases apart key with absent | absent
    · simp [absent]
    · simp [absent]

/-- A list of parts that are found by their tags, and in each part its own values. -/
theorem placed_parts (parts : List α) (tag : α → ι) (distinct : (parts.map tag).Nodup)
    (part? : ι → Option α)
    (listed : ∀ key part, part? key = some part ↔ part ∈ parts ∧ tag part = key)
    (held : α → List Value) (heldAt? : α → κ → Option Value)
    (each : ∀ part, Placed (held part) (heldAt? part)) :
    Placed (parts.flatMap held) fun key : ι × κ =>
      (part? key.1).bind fun part => heldAt? part key.2 := by
  choose located values single found using each
  refine ⟨parts.flatMap fun part => (located part).map fun entry => ((tag part, entry.1), entry.2),
    ?_, ?_, ?_⟩
  · simp only [List.map_flatMap, List.map_map, Function.comp_def, values]
  · -- Within a part the values have keys of their own, and two parts differ in their tags.
    simp only [List.map_flatMap, List.map_map, Function.comp_def]
    rw [List.nodup_flatMap]
    constructor
    · intro part _
      have own := (single part).map (Prod.mk_right_injective (tag part))
      simpa only [List.map_map, Function.comp_def] using own
    · refine (List.pairwise_map.mp distinct).imp ?_
      intro first second apart key inFirst inSecond
      obtain ⟨_, _, rfl⟩ := List.mem_map.mp inFirst
      obtain ⟨_, _, same⟩ := List.mem_map.mp inSecond
      exact apart (congrArg Prod.fst same).symm
  · rintro ⟨place, key⟩ value
    simp only [List.mem_flatMap, List.mem_map, Option.bind_eq_some_iff, listed, Prod.mk.injEq]
    constructor
    · rintro ⟨part, member, ⟨_, _⟩, kept, ⟨rfl, rfl⟩, rfl⟩
      exact ⟨part, ⟨member, rfl⟩, (found part _ _).mp kept⟩
    · rintro ⟨part, ⟨member, rfl⟩, kept⟩
      exact ⟨part, member, (key, value), (found part key value).mpr kept, ⟨rfl, rfl⟩, rfl⟩

theorem Placed.count [DecidableEq κ] (placed : Placed values at?) (test : Value → Bool) :
    ∃ keys : Finset κ, values.countP test = keys.card ∧
      ∀ key, key ∈ keys ↔ ∃ value, at? key = some value ∧ test value = true := by
  obtain ⟨located, rfl, distinct, found⟩ := placed
  have once : ((located.filter fun entry => test entry.2).map Prod.fst).Nodup :=
    distinct.sublist (List.filter_sublist.map Prod.fst)
  refine ⟨((located.filter fun entry => test entry.2).map Prod.fst).toFinset, ?_, ?_⟩
  · rw [List.toFinset_card_of_nodup once, List.length_map, ← List.countP_eq_length_filter,
      List.countP_map]
    rfl
  · intro key
    simp only [List.mem_toFinset, List.mem_map, List.mem_filter]
    constructor
    · rintro ⟨⟨_, value⟩, ⟨kept, passes⟩, rfl⟩
      exact ⟨value, (found _ _).mp kept, passes⟩
    · rintro ⟨value, kept, passes⟩
      exact ⟨(key, value), ⟨(found key value).mpr kept, passes⟩, rfl⟩

end Placed

theorem placed_operand (operand : Value) (at? : Slot → Option Value)
    (own : at? .operand = some operand) (only : ∀ index, at? (.argument index) = none) :
    Placed [operand] at? := by
  refine ⟨[(.operand, operand)], rfl, List.nodup_singleton _, ?_⟩
  intro slot value
  cases slot with
  | operand => simp [own, eq_comm]
  | argument index => simp [only]

theorem placed_arguments (arguments : List Value) (at? : Slot → Option Value)
    (absent : at? .operand = none) (own : ∀ index, at? (.argument index) = arguments[index]?) :
    Placed arguments at? := by
  apply (placed_list arguments).rename Slot.argument fun _ _ same => Slot.argument.inj same
  intro slot value
  cases slot with
  | operand => simp [absent]
  | argument index => simp [own]

theorem Test.placed (test : Test) : Placed test.values test.valueAt? := by
  cases test with
  | unset => exact placed_nil
  | compare comparator operand => exact placed_operand operand _ rfl fun _ => rfl
  | call operation arguments => exact placed_arguments arguments _ rfl fun _ => rfl

theorem Command.placed (command : Command) : Placed command.values command.valueAt? := by
  cases command with
  | unset => exact placed_nil
  | mutate mutation operand => exact placed_operand operand _ rfl fun _ => rfl
  | call operation arguments => exact placed_arguments arguments _ rfl fun _ => rfl

theorem placed_rows {α : Type} (rows : List α) (held : α → List Value)
    (heldAt? : α → Slot → Option Value) (each : ∀ row, Placed (held row) (heldAt? row)) :
    Placed (rows.flatMap held) fun key : Nat × Slot =>
      rows[key.1]?.bind fun row => heldAt? row key.2 := by
  -- A row together with its position is a part that has the position for its tag.
  have distinct : (rows.zipIdx.map Prod.snd).Nodup := by
    rw [List.zipIdx_map_snd]
    exact List.nodup_range'
  have listed (index : Nat) (entry : α × Nat) :
      (rows[index]?.map fun row => (row, index)) = some entry ↔
        entry ∈ rows.zipIdx ∧ entry.2 = index := by
    rw [List.mem_zipIdx_iff_getElem?, Option.map_eq_some_iff]
    constructor
    · rintro ⟨row, found, rfl⟩
      exact ⟨found, rfl⟩
    · rintro ⟨found, rfl⟩
      exact ⟨entry.1, found, rfl⟩
  have numbered := placed_parts rows.zipIdx Prod.snd distinct _ listed (fun entry => held entry.1)
    (fun entry => heldAt? entry.1) fun entry => each entry.1
  simpa only [← List.flatMap_map, List.zipIdx_map_fst, Option.bind_map, Function.comp_def] using numbered

theorem Content.placed (content : Content) :
    Placed content.values fun key : Nat × Slot => content.valueAt? key.1 key.2 := by
  cases content with
  | start | line _ | choice _ => exact placed_nil
  | condition test => exact placed_rows test.clauses _ _ fun clause => clause.test.placed
  | action change => exact placed_rows change.effects _ _ fun effect => effect.command.placed

theorem Board.placed (board : Board) :
    Placed board.values fun index : Nat => board.properties[index]?.map Property.value := by
  simpa only [Board.values, List.getElem?_map] using placed_list board.values

namespace Graph

theorem nodes_placed (graph : Graph) :
    Placed (graph.nodes.values.flatMap fun node => node.content.values)
      fun key : NodeId × Nat × Slot =>
        (graph.node? key.1).bind fun node => node.content.valueAt? key.2.1 key.2.2 := by
  have listed (id : NodeId) (entry : NodeId × Node) :
      ((graph.node? id).map fun node => (id, node)) = some entry ↔
        entry ∈ graph.nodes.entries ∧ entry.1 = id := by
    rw [Option.map_eq_some_iff]
    constructor
    · rintro ⟨node, found, rfl⟩
      exact ⟨graph.nodes.mem_of_find id node found, rfl⟩
    · rintro ⟨filed, rfl⟩
      exact ⟨entry.2, graph.nodes.find_of_mem entry.1 entry.2 filed, rfl⟩
  have filed := placed_parts graph.nodes.entries Prod.fst graph.nodes.keys_nodup _ listed
    (fun entry => entry.2.content.values)
    (fun entry (key : Nat × Slot) => entry.2.content.valueAt? key.1 key.2)
    fun entry => entry.2.content.placed
  simpa only [Keyed.values, List.flatMap_map, Option.bind_map, Function.comp_def] using filed

/-- The values of a graph are those at its places, and no two of them share one. -/
theorem placed (graph : Graph) : Placed graph.values graph.valueAt? := by
  -- A place on the board and a place in a node are never the same, so each half may be found by itself.
  have properties : Placed graph.board.values
      fun place : Location => match place with
        | .property index => graph.valueAt? (.property index)
        | .row _ _ _ => none := by
    apply graph.board.placed.rename Location.property fun _ _ same => Location.property.inj same
    rintro (index | ⟨id, index, slot⟩) value <;> simp [valueAt?]
  have rows : Placed (graph.nodes.values.flatMap fun node => node.content.values)
      fun place : Location => match place with
        | .property _ => none
        | .row id index slot => graph.valueAt? (.row id index slot) := by
    apply graph.nodes_placed.rename fun key => .row key.1 key.2.1 key.2.2
    · rintro ⟨_, _, _⟩ ⟨_, _, _⟩ same
      cases same
      rfl
    · rintro (index | ⟨id, index, slot⟩) value <;> simp [valueAt?]
  apply properties.append rows
  · rintro (_ | _) <;> simp
  · rintro (_ | _) <;> simp

end Graph

end Dialogue

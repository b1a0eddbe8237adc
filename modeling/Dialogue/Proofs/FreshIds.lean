import Dialogue.Proofs.Reloading
import Dialogue.Proofs.Authoring
import Mathlib.Data.List.Find
/-!
Ids over everything that happens to a graph. The next id only grows, through edits, loading and whatever
is done to the graph behind the back of its edits, so an id is given out once. As long as nodes come in
by being added, their ids ascend in the order in which they came.
-/
namespace Dialogue

variable {σ : Type}

/-- What happens to a graph: edits, and what else its open fields allow. -/
inductive Change (σ : Type) where
  | edit (made : Edit σ)
  | putNode (id : NodeId) (node : Node)
  | dropNode (id : NodeId)
  | reviseNode (id : NodeId) (revise : Node → Node)
  | setConnections (connections : List Connection)
  | setBoard (board : Board)
  | setTable (table : String)

namespace Change

def perform (graph : Graph) : Change σ → Graph
  | edit made => made.perform graph
  | putNode id node => graph.putNode id node
  | dropNode id => graph.dropNode id
  | reviseNode id revise => { graph with nodes := graph.nodes.modify id revise }
  | setConnections connections => { graph with connections := connections }
  | setBoard board => { graph with board := board }
  | setTable table => { graph with table := table }

def handed? (graph : Graph) : Change σ → Option NodeId
  | edit (.addNode node) =>
      if graph.freshId + 1 < idBound then some (graph.addNode node).1 else none
  | _ => none

/-- The nodes after a change in the order in which they came; a node put in place of another keeps its
place. -/
def arrivals (graph : Graph) (present : List NodeId) (change : Change σ) : List NodeId :=
  match change with
  | putNode id _ => if id ∈ present then present else present ++ [id]
  | edit (.removeNode id) | dropNode id => present.filter fun other => other ≠ id
  | change => present ++ (change.handed? graph).toList

def isInsertion : Change σ → Bool
  | putNode _ _ => true
  | _ => false

end Change

structure History where
  graph : Graph
  /-- The ids given out so far. -/
  handed : List NodeId
  /-- The nodes that are left, in the order in which they came. -/
  present : List NodeId

namespace History

def follow (history : History) (change : Change σ) : History where
  graph := change.perform history.graph
  handed := history.handed ++ (change.handed? history.graph).toList
  present := change.arrivals history.graph history.present

def of (begun : Graph) (changes : List (Change σ)) : History :=
  changes.foldl follow ⟨begun, [], begun.nodes.keys⟩

theorem invariant (holds : History → Prop) (allowed : Change σ → Prop) (begun : Graph)
    (changes : List (Change σ)) (start : holds ⟨begun, [], begun.nodes.keys⟩)
    (each : ∀ change ∈ changes, allowed change)
    (kept : ∀ history change, allowed change → holds history → holds (history.follow change)) :
    holds (of begun changes) := by
  unfold of
  generalize (⟨begun, [], begun.nodes.keys⟩ : History) = history at start
  induction changes generalizing history with
  | nil => exact start
  | cons change rest ih =>
      exact ih (fun other member => each other (List.mem_cons_of_mem _ member)) _
        (kept history change (each change List.mem_cons_self) start)

end History

theorem accepted_nextId (graph after : Graph) (edit : Edit σ) (accepted : edit.Accepted graph after) :
    graph.nextId ≤ after.nextId := by
  cases accepted with
  | addNode room => exact Nat.le_succ_of_le graph.freshId_free.1
  | reload loaded =>
      rw [(graph.loaded_reread _ loaded).2]
      exact Nat.le_max_left _ _
  | _ => exact Nat.le_refl _

theorem perform_nextId (graph : Graph) (change : Change σ) :
    graph.nextId ≤ (change.perform graph).nextId := by
  cases change with
  | edit made =>
      rcases made.perform_cases graph with refused | accepted
      · exact Nat.le_of_eq (congrArg Graph.nextId refused.symm)
      · exact accepted_nextId graph _ made accepted
  | _ => exact Nat.le_refl _

/-- An id that is given out was the next or a later one, and the next id moves past it. -/
theorem handed_between (graph : Graph) (change : Change σ) (id : NodeId)
    (handed : change.handed? graph = some id) :
    graph.nextId ≤ id ∧ id < (change.perform graph).nextId := by
  unfold Change.handed? at handed
  split at handed
  next node =>
    split at handed
    next room =>
      cases handed
      simp [Change.perform, Edit.perform, room, Graph.addNode, graph.freshId_free.1]
    · cases handed
  · cases handed

theorem handed_below (begun : Graph) (changes : List (Change σ)) :
    ∀ id ∈ (History.of begun changes).handed, id < (History.of begun changes).graph.nextId := by
  apply History.invariant (fun history => ∀ id ∈ history.handed, id < history.graph.nextId)
    (fun _ => True) begun changes
  · exact fun _ member => (List.not_mem_nil member).elim
  · exact fun _ _ => trivial
  · intro history change _ below id member
    rcases List.mem_append.mp member with earlier | now
    · exact Nat.lt_of_lt_of_le (below id earlier) (perform_nextId history.graph change)
    · exact (handed_between history.graph change id (Option.mem_toList.mp now)).2

theorem edited_keys (graph : Graph) (edit : Edit σ) (adds : ∀ node, edit ≠ .addNode node)
    (removes : ∀ id, edit ≠ .removeNode id) :
    (edit.perform graph).nodes.keys = graph.nodes.keys := by
  rcases edit.perform_cases graph with refused | accepted
  · rw [refused]
  generalize edit.perform graph = after at accepted
  cases accepted with
  | addNode => exact absurd rfl (adds _)
  | removeNode => exact absurd rfl (removes _)
  | reload loaded =>
      rw [(graph.loaded_reread _ loaded).2]
      exact Keyed.keys_mapWithKey _ _
  | addChoice | removeChoice | setChoiceKey | bindHandles => exact Keyed.keys_mapWithKey _ _
  | _ => rfl

/-- While ids are below the next one, a new node comes last. -/
theorem perform_keys (graph : Graph) (change : Change σ) (added : change.isInsertion = false)
    (below : ∀ id ∈ graph.nodes.keys, id < graph.nextId) :
    (change.perform graph).nodes.keys = change.arrivals graph graph.nodes.keys := by
  cases change with
  | putNode => cases added
  | dropNode id => exact graph.nodes.keys_erase id
  | reviseNode id revise =>
      exact (Keyed.keys_mapWithKey _ _).trans (List.append_nil _).symm
  | edit made =>
      change (made.perform graph).nodes.keys = _
      cases made with
      | addNode node =>
          have past : ∀ id ∈ graph.nodes.keys, compare id graph.freshId = .lt := fun id member =>
            Nat.compare_eq_lt.mpr (Nat.lt_of_lt_of_le (below id member) graph.freshId_free.1)
          simp only [Edit.perform, Change.arrivals, Change.handed?]
          split
          · exact graph.nodes.keys_insert_last _ _ past
          · exact (List.append_nil _).symm
      | removeNode id =>
          simp only [Edit.perform, Graph.removeNode, Change.arrivals]
          cases stored : graph.node? id with
          | some node => exact graph.nodes.keys_erase id
          | none =>
              -- No node has the id, so leaving it out leaves out nothing.
              refine (List.filter_eq_self.mpr fun other member => ?_).symm
              obtain ⟨node, found⟩ := (graph.nodes.mem_keys_iff other).mp member
              refine decide_eq_true fun same => ?_
              rw [same] at found
              exact Option.some_ne_none node (found.symm.trans stored)
      | _ =>
          rw [edited_keys graph _ (by simp) (by simp)]
          exact (List.append_nil _).symm
  | _ => exact (List.append_nil _).symm

theorem arrivals_of_present (graph : Graph) (change : Change σ) (present : List NodeId)
    (id : NodeId) (member : id ∈ change.arrivals graph present) (added : change.isInsertion = false) :
    id ∈ present ∨ change.handed? graph = some id := by
  unfold Change.arrivals at member
  split at member
  · cases added
  · exact Or.inl (List.mem_of_mem_filter member)
  · exact Or.inl (List.mem_of_mem_filter member)
  · exact (List.mem_append.mp member).imp_right Option.mem_toList.mp

/-- What a history keeps while nodes come in by being added. -/
structure InOrder (history : History) : Prop where
  listed : history.graph.nodes.keys = history.present
  below : ∀ id ∈ history.present, id < history.graph.nextId

theorem follow_inOrder (history : History) (change : Change σ) (added : change.isInsertion = false)
    (ordered : InOrder history) : InOrder (history.follow change) where
  listed := by
    have listed := ordered.listed
    have kept := perform_keys history.graph change added (listed ▸ ordered.below)
    rwa [listed] at kept
  below id member := by
    rcases arrivals_of_present _ _ _ id member added with earlier | now
    · exact Nat.lt_of_lt_of_le (ordered.below id earlier) (perform_nextId history.graph change)
    · exact (handed_between history.graph change id now).2

theorem start_by_keys (graph : Graph) :
    graph.start? = graph.nodes.keys.find? fun id =>
      (graph.node? id).any fun node => node.kind = .start := by
  unfold Graph.start? Keyed.keys
  rw [List.find?_map]
  refine congrArg _ (List.find?_congr fun entry filed => ?_)
  have found : graph.node? entry.1 = some entry.2 := graph.nodes.find_of_mem _ _ filed
  simp [found]

/-- Whatever happens to a graph, an added node gets an id that was never given out and that no node
has. In a graph whose ids are below the next one, as in a new or a loaded graph, and without insertions
by hand, nodes are listed in the order in which they came. -/
theorem ids_never_reused (begun : Graph) (changes : List (Change σ)) :
    let history := History.of begun changes
    (∀ node, (history.graph.addNode node).1 ∉ history.handed ∧
      history.graph.node? (history.graph.addNode node).1 = none ∧
      ∀ id stored, history.graph.node? id = some stored →
        (history.graph.addNode node).2.node? id = some stored) ∧
    ((∀ id ∈ begun.nodes.keys, id < begun.nextId) →
      (∀ change ∈ changes, change.isInsertion = false) →
      history.graph.nodes.keys = history.present ∧
      history.graph.start? = history.present.find? fun id =>
        (history.graph.node? id).any fun node => node.kind = .start) := by
  intro history
  have fresh : history.graph.node? history.graph.freshId = none := history.graph.freshId_fresh
  refine ⟨fun node => ⟨fun again => ?_, fresh, fun id stored found => ?_⟩, fun below added => ?_⟩
  · have earlier := handed_below begun changes _ again
    exact Nat.not_le_of_lt earlier history.graph.freshId_free.1
  · have different : id ≠ history.graph.freshId := by
      rintro rfl
      exact Option.some_ne_none stored (found.symm.trans fresh)
    exact (Keyed.find_insert _ _ _ _).trans ((if_neg different).trans found)
  · have ordered : InOrder history :=
      History.invariant InOrder _ begun changes ⟨rfl, below⟩ added follow_inOrder
    exact ⟨ordered.listed, ordered.listed ▸ start_by_keys history.graph⟩

def startsAgain : List (Change Unit) :=
  [.edit (.addNode (.of .start)), .edit (.addNode (.of .start)), .edit (.removeNode 2),
    .edit (.addNode (.of .start))]

theorem ids_never_reused_demo :
    let history := History.of (Graph.new "texts") startsAgain
    history.handed = [1, 2, 3] ∧ history.graph.nodes.keys = [1, 3] ∧ history.graph.start? = some 1 := by
  have fresh := ids_never_reused (Graph.new "texts") startsAgain
  obtain ⟨listed, first⟩ := fresh.2 (by simp [Graph.new, Keyed.empty, Keyed.keys]) (by decide)
  refine ⟨by decide, listed.trans (by decide), first.trans (by decide)⟩

end Dialogue

import Dialogue.Proofs.Connecting
import Dialogue.Proofs.SilentLoops
/-!
What the search for loops finds. Searched without any bound on its depth it comes to the same answer, so the
bound is no part of what it does; and as every node of the path leads to the node at hand, one that is met
again lies on a loop.
-/
namespace Dialogue

open Relation (TransGen)

namespace SilentLoop

variable (next : NodeId → List NodeId)

/-- The search over the targets that are left of the node at hand, which is the last of the path. It goes
as deep as it has to, and comes to the nodes seen by then or to the node that was met again. -/
inductive Explores :
    List NodeId → List NodeId → List NodeId → Except NodeId (List NodeId) → Prop where
  | done {path seen : List NodeId} : Explores path seen [] (.ok seen)
  | met {path seen rest : List NodeId} {target : NodeId} (again : target ∈ path) :
      Explores path seen (target :: rest) (.error target)
  | known {path seen rest : List NodeId} {target : NodeId} {answer : Except NodeId (List NodeId)}
      (off : target ∉ path) (known : target ∈ seen) (onward : Explores path seen rest answer) :
      Explores path seen (target :: rest) answer
  | found {path seen rest : List NodeId} {target back : NodeId}
      (off : target ∉ path) (fresh : target ∉ seen)
      (deeper : Explores (target :: path) (target :: seen) (next target) (.error back)) :
      Explores path seen (target :: rest) (.error back)
  | left {path seen after rest : List NodeId} {target : NodeId}
      {answer : Except NodeId (List NodeId)} (off : target ∉ path) (fresh : target ∉ seen)
      (deeper : Explores (target :: path) (target :: seen) (next target) (.ok after))
      (onward : Explores path after rest answer) :
      Explores path seen (target :: rest) answer

theorem explores_unique (path seen targets : List NodeId) (one other : Except NodeId (List NodeId))
    (explores : Explores next path seen targets one) :
    Explores next path seen targets other → one = other := by
  -- What is done with a target depends only on whether it stands on the path and whether it was seen.
  induction explores generalizing other with
  | done =>
      rintro ⟨⟩
      rfl
  | met again =>
      intro explores
      cases explores with
      | met => rfl
      | known off => exact absurd again off
      | found off => exact absurd again off
      | left off => exact absurd again off
  | known off known _ ih =>
      intro explores
      cases explores with
      | met again => exact absurd again off
      | known _ _ onward => exact ih other onward
      | found _ fresh => exact absurd known fresh
      | left _ fresh => exact absurd known fresh
  | found off fresh _ ih =>
      intro explores
      cases explores with
      | met again => exact absurd again off
      | known _ known => exact absurd known fresh
      | found _ _ deeper => exact ih _ deeper
      | left _ _ deeper => cases ih _ deeper
  | left off fresh _ _ ihDeeper ihOnward =>
      intro explores
      cases explores with
      | met again => exact absurd again off
      | known _ known => exact absurd known fresh
      | found _ _ deeper => cases ihDeeper _ deeper
      | left _ _ deeper onward =>
          cases ihDeeper _ deeper
          exact ihOnward other onward

def step (depth : Nat) (path seen : List NodeId) (target : NodeId) : Except NodeId (List NodeId) :=
  if target ∈ path then .error target
  else if target ∈ seen then .ok seen
  else visit next depth path seen target

theorem visit_succ (depth : Nat) (path seen : List NodeId) (node : NodeId) :
    visit next (depth + 1) path seen node =
      (next node).foldlM (step next depth (node :: path)) (node :: seen) := by
  rw [visit]
  congr 1
  funext before target
  simp only [step, List.mem_cons]

theorem search_eq (nodes : List NodeId) :
    search next nodes = nodes.foldlM (step next nodes.length []) [] := rfl

/-- If the bounded search of every new target is the unbounded one, so is going through all of them. -/
theorem fold_explores (depth : Nat) (path seen targets : List NodeId)
    (deeper : ∀ before, ∀ target ∈ targets, target ∉ path → target ∉ before →
      Explores next (target :: path) (target :: before) (next target)
        (visit next depth path before target)) :
    Explores next path seen targets (targets.foldlM (step next depth path) seen) := by
  induction targets generalizing seen with
  | nil => exact .done
  | cons target rest ih =>
      have onward := fun before => ih before fun between other member =>
        deeper between other (List.mem_cons_of_mem target member)
      rw [List.foldlM_cons, step]
      by_cases again : target ∈ path
      · rw [if_pos again]
        exact .met again
      by_cases known : target ∈ seen
      · rw [if_neg again, if_pos known]
        exact .known again known (onward seen)
      · have explores := deeper seen target List.mem_cons_self again known
        rw [if_neg again, if_neg known]
        cases answer : visit next depth path seen target with
        | error back =>
            rw [answer] at explores
            exact .found again known explores
        | ok after =>
            rw [answer] at explores
            exact .left again known explores (onward after)

/-- A path over different nodes, of which there are finitely many, never comes to the bound. -/
theorem visit_explores (nodes : List NodeId) (closed : ∀ node, next node ⊆ nodes) (depth : Nat)
    (path seen : List NodeId) (node : NodeId) (simple : (node :: path).Nodup)
    (inside : node :: path ⊆ nodes) (deep : nodes.length ≤ path.length + depth) :
    Explores next (node :: path) (node :: seen) (next node) (visit next depth path seen node) := by
  induction depth generalizing path seen node with
  | zero => exact (depth_suffices nodes path node simple inside deep).elim
  | succ depth ih =>
      rw [visit_succ]
      refine fold_explores next depth (node :: path) (node :: seen) (next node) ?_
      -- A new target makes the path longer by as much as the depth has become less.
      intro before target outgoing off _
      have simpler : (target :: node :: path).Nodup := List.nodup_cons.mpr ⟨off, simple⟩
      have further : target :: node :: path ⊆ nodes :=
        List.cons_subset.mpr ⟨closed node outgoing, inside⟩
      exact ih (node :: path) before target simpler further
        (by simp only [List.length_cons]; omega)

theorem search_explores (nodes : List NodeId) (closed : ∀ node, next node ⊆ nodes) :
    Explores next [] [] nodes (search next nodes) := by
  rw [search_eq]
  refine fold_explores next nodes.length [] [] nodes ?_
  intro before target member _ _
  exact visit_explores next nodes closed nodes.length [] before target
    (List.nodup_singleton target) (by simpa using member) (by simp)

/-- Every node of the path leads to whatever is looked at, so the one met again leads to itself. -/
theorem explores_loop (path seen targets : List NodeId) (answer : Except NodeId (List NodeId))
    (explores : Explores next path seen targets answer) (back : NodeId)
    (leads : ∀ member ∈ path, ∀ target ∈ targets,
      TransGen (fun source target => target ∈ next source) member target)
    (found : answer = .error back) :
    TransGen (fun source target => target ∈ next source) back back := by
  induction explores with
  | done => cases found
  | met again =>
      cases found
      exact leads _ again _ List.mem_cons_self
  | known _ _ _ ih =>
      exact ih (fun member on target ahead => leads member on target (List.mem_cons_of_mem _ ahead))
        found
  | @found path seen rest target back _ _ _ ih =>
      -- The path has grown by the target, which leads to each of its own targets at once.
      refine ih ?_ found
      intro member on further outgoing
      rcases List.mem_cons.mp on with rfl | on
      · exact .single outgoing
      · exact (leads member on target List.mem_cons_self).tail outgoing
  | left _ _ _ _ _ ih =>
      exact ih (fun member on target ahead => leads member on target (List.mem_cons_of_mem _ ahead))
        found

/-- A connection, over whatever pins, from a node that is never shown to another. -/
def SilentlyLeads (graph : Graph) (source target : NodeId) : Prop :=
  ∃ connection ∈ graph.connections,
    connection.source.node = source ∧ connection.target.node = target ∧
    (∃ node, graph.node? source = some node ∧ node.kind.isPresentable = false) ∧
    ∃ node, graph.node? target = some node ∧ node.kind.isPresentable = false

theorem successors_lead (graph : Graph) (source target : NodeId) :
    target ∈ successors graph source ↔ SilentlyLeads graph source target := by
  rw [mem_successors, silent_iff_stored, silent_iff_stored]
  constructor
  · rintro ⟨silent, silentTarget, connection, member, out, into⟩
    exact ⟨connection, member, out, into, silent, silentTarget⟩
  · rintro ⟨connection, member, out, into, silent, silentTarget⟩
    exact ⟨silent, silentTarget, connection, member, out, into⟩

theorem successors_edges (graph : Graph) :
    (fun source target => target ∈ successors graph source) = SilentlyLeads graph :=
  funext₂ fun source target => propext (successors_lead graph source target)

theorem loopReports_eq (graph : Graph) :
    graph.lint.filter (fun diagnostic => diagnostic.finding = .silentCycle) = Lint.loops graph := by
  let wanted (finding : Finding) : Bool := finding = .silentCycle
  have starts := Lint.starts_dropped wanted graph rfl rfl
  have names := Lint.names_dropped wanted graph.board.properties [] rfl
  have connections := Lint.connections_dropped wanted graph [] <| by
    intro finding ofConnection
    cases finding <;> first | rfl | cases ofConnection
  have references := Lint.references_dropped wanted graph rfl rfl
  have kept : (Lint.loops graph).filter (fun diagnostic => wanted diagnostic.finding) =
      Lint.loops graph := by
    rw [List.filter_eq_self]
    intro diagnostic reported
    rw [graph.loops_finding diagnostic reported]
    rfl
  simp only [wanted] at starts names connections references kept
  rw [Graph.lint]
  simp only [List.filter_append, starts, names, connections, references, kept, List.nil_append]

theorem clean_not_back (graph : Graph)
    (clean : ∀ diagnostic ∈ graph.lint, diagnostic.finding ≠ .silentCycle) (id : NodeId) :
    ¬TransGen (SilentlyLeads graph) id id := by
  intro back
  obtain ⟨target, leads, _⟩ := TransGen.head'_iff.mp back
  have outgoing := (successors_lead graph id target).mpr leads
  have silent := ((mem_successors graph id target).mp outgoing).1
  exact ends_not_back _ id (ends_of_clean_lint graph clean id silent) (successors_edges graph ▸ back)

theorem graph_explored (graph : Graph) :
    Explores (successors graph) [] [] (silentNodes graph)
      (search (successors graph) (silentNodes graph)) := by
  refine search_explores (successors graph) (silentNodes graph) ?_
  intro node target outgoing
  exact (mem_silentNodes graph target).mpr ((mem_successors graph node target).mp outgoing).2.1

theorem reported_on_loop (graph : Graph) (reported : Lint.loops graph ≠ []) :
    ∃ id, TransGen (SilentlyLeads graph) id id ∧
      Explores (successors graph) [] [] (silentNodes graph) (.error id) ∧
      Lint.loops graph = [.atNode .silentCycle id] := by
  have explored := graph_explored graph
  simp only [Lint.loops, find?] at reported ⊢
  cases searched : search (successors graph) (silentNodes graph) with
  | ok visited =>
      rw [searched] at reported
      exact absurd rfl reported
  | error id =>
      rw [searched] at explored
      have loop := explores_loop _ [] [] _ _ explored id (List.forall_mem_nil _) rfl
      rw [successors_edges] at loop
      exact ⟨id, loop, explored, rfl⟩

/-- On every graph the search comes to an end, with one answer. Lint reports a silent loop exactly if there is
one, over whatever pins and connections; it does so once, and the node it names lies on such a loop. -/
theorem silent_loops_reported (graph : Graph) :
    let answered := Explores (successors graph) [] [] (silentNodes graph)
    let onLoop := fun id => TransGen (SilentlyLeads graph) id id
    let reports := graph.lint.filter fun diagnostic => diagnostic.finding = .silentCycle
    (∃! answer, answered answer) ∧
      (reports ≠ [] ↔ ∃ id, onLoop id) ∧
      (reports ≠ [] →
        ∃ id, onLoop id ∧ answered (.error id) ∧ reports = [.atNode .silentCycle id]) := by
  intro answered onLoop reports
  have explored : answered _ := graph_explored graph
  have named : reports ≠ [] →
      ∃ id, onLoop id ∧ answered (.error id) ∧ reports = [.atNode .silentCycle id] := by
    have same : reports = Lint.loops graph := loopReports_eq graph
    rw [same]
    exact reported_on_loop graph
  refine ⟨⟨_, explored, ?_⟩, ⟨?_, ?_⟩, named⟩
  · intro other explores
    exact explores_unique _ _ _ _ _ _ explores explored
  · intro reported
    obtain ⟨id, loop, _⟩ := named reported
    exact ⟨id, loop⟩
  · -- A clean lint leaves only ends before every silent node, and no loop comes to an end.
    rintro ⟨id, loop⟩ unreported
    have clean : ∀ diagnostic ∈ graph.lint, diagnostic.finding ≠ .silentCycle := by
      simpa [reports, List.filter_eq_nil_iff] using unreported
    exact clean_not_back graph clean id loop

end SilentLoop

end Dialogue

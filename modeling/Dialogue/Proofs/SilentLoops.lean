import Dialogue.Lint
import Dialogue.Proofs.KeyedLaws
import Mathlib.Data.List.Nodup
import Mathlib.Logic.Relation
/-!
The search for loops misses none. A node that the search leaves behind without a report has only ends
before it, whichever way one goes on; on such nodes no path can meet itself.
-/
namespace Dialogue.SilentLoop

variable (next : NodeId → List NodeId)

/-- However one goes on from the node, one comes to an end. -/
def Ends (node : NodeId) : Prop := Acc (fun target source => target ∈ next source) node

theorem ends_of_targets (node : NodeId) (targets : ∀ target ∈ next node, Ends next target) :
    Ends next node :=
  Acc.intro node targets

theorem acc_not_self {α : Type} (r : α → α → Prop) (a : α) (accessible : Acc r a) : ¬ r a a := by
  induction accessible with
  | intro a _ ih => exact fun self => ih a self self

theorem ends_not_back (node : NodeId) (ends : Ends next node) :
    ¬ Relation.TransGen (fun source target => target ∈ next source) node node := by
  intro back
  exact acc_not_self _ node (Acc.transGen ends) (Relation.transGen_swap.mpr back)

theorem fold_ok {α β ε : Type} (step : β → α → Except ε β) (kept : β → Prop) (dealt : α → Prop)
    (items : List α)
    (steps : ∀ before, ∀ item ∈ items, ∀ after, kept before → step before item = .ok after →
      kept after ∧ dealt item)
    (start final : β) (initially : kept start) (ran : items.foldlM step start = .ok final) :
    kept final ∧ ∀ item ∈ items, dealt item := by
  induction items generalizing start with
  | nil =>
      cases ran
      exact ⟨initially, by simp⟩
  | cons item rest ih =>
      rw [List.foldlM_cons] at ran
      cases first : step start item with
      | error problem =>
          rw [first] at ran
          cases ran
      | ok middle =>
          rw [first] at ran
          obtain ⟨keptMiddle, dealtItem⟩ := steps start item List.mem_cons_self middle initially first
          obtain ⟨keptFinal, dealtRest⟩ := ih
            (fun before other member => steps before other (List.mem_cons_of_mem item member))
            middle keptMiddle ran
          exact ⟨keptFinal, by simpa [dealtItem] using dealtRest⟩

/-- The depth always suffices: the path being searched holds different nodes, and with the node at hand
they would be too many. -/
theorem depth_suffices (nodes path : List NodeId) (node : NodeId) (simple : (node :: path).Nodup)
    (inside : node :: path ⊆ nodes) (deep : nodes.length ≤ path.length) : False := by
  have short := simple.length_le_of_subset inside
  simp only [List.length_cons] at short
  omega

theorem visit_ends (nodes : List NodeId) (closed : ∀ node, next node ⊆ nodes) (depth : Nat)
    (path seen : List NodeId) (node : NodeId) (simple : (node :: path).Nodup)
    (inside : node :: path ⊆ nodes) (deep : nodes.length ≤ path.length + depth)
    (settled : ∀ member ∈ seen, member ∉ path → Ends next member) (visited : List NodeId)
    (done : visit next depth path seen node = .ok visited) :
    node :: seen ⊆ visited ∧ ∀ member ∈ visited, member ∉ path → Ends next member := by
  induction depth generalizing path seen node visited with
  | zero => exact (depth_suffices nodes path node simple inside deep).elim
  | succ depth ih =>
      simp only [visit] at done
      -- The node at hand counts as seen at once, but is settled only after all its targets are.
      have initially : ∀ member ∈ node :: seen, member ∉ node :: path → Ends next member := by
        intro member inSeen offPath
        obtain ⟨other, offPath⟩ := not_or.mp (mt List.mem_cons.mpr offPath)
        exact settled member ((List.mem_cons.mp inSeen).resolve_left other) offPath
      have ran := fold_ok _
        (fun so => node :: seen ⊆ so ∧ ∀ member ∈ so, member ∉ node :: path → Ends next member)
        (Ends next) (next node) (fun before target outgoing after => ?_) (node :: seen) visited
        ⟨List.Subset.refl _, initially⟩ done
      · obtain ⟨⟨kept, settledAll⟩, targets⟩ := ran
        refine ⟨kept, fun member inVisited offPath => ?_⟩
        by_cases same : member = node
        · exact same ▸ ends_of_targets next node targets
        · exact settledAll member inVisited (by simp [same, offPath])
      · rintro ⟨kept, settledBefore⟩ stepped
        split at stepped
        · cases stepped
        next fresh =>
          have offPath : target ∉ node :: path := by simpa using fresh
          split at stepped
          next known =>
            cases stepped
            exact ⟨⟨kept, settledBefore⟩, settledBefore target known offPath⟩
          next unknown =>
            have further : target :: node :: path ⊆ nodes :=
              List.cons_subset.mpr ⟨closed node outgoing, inside⟩
            obtain ⟨grown, settledAfter⟩ := ih (node :: path) before target
              (List.nodup_cons.mpr ⟨offPath, simple⟩) further
              (by simp only [List.length_cons]; omega) settledBefore after stepped
            obtain ⟨reached, grown⟩ := List.cons_subset.mp grown
            exact ⟨⟨List.Subset.trans kept grown, settledAfter⟩, settledAfter target reached offPath⟩

/-- A search that reports nothing leaves only ends before every node. -/
theorem search_ends (nodes : List NodeId) (closed : ∀ node, next node ⊆ nodes)
    (visited : List NodeId) (done : search next nodes = .ok visited) :
    ∀ node ∈ nodes, Ends next node := by
  refine (fold_ok _ (fun seen => ∀ member ∈ seen, Ends next member) (Ends next) nodes ?_ [] visited
    (by simp) done).2
  intro before node member after settled stepped
  split at stepped
  next known =>
    cases stepped
    exact ⟨settled, settled node known⟩
  next unknown =>
    obtain ⟨grown, settledAfter⟩ := visit_ends next nodes closed nodes.length [] before node
      (List.nodup_singleton node) (by simpa using member) (by simp)
      (fun known inBefore _ => settled known inBefore) after stepped
    have settledAll : ∀ member ∈ after, Ends next member := fun known inAfter =>
      settledAfter known inAfter (List.not_mem_nil)
    exact ⟨settledAll, settledAll node (grown List.mem_cons_self)⟩

theorem silent_iff_stored (graph : Graph) (id : NodeId) :
    isSilent graph id = true ↔
      ∃ node, graph.node? id = some node ∧ node.kind.isPresentable = false := by
  unfold isSilent
  cases graph.node? id <;> simp

theorem mem_silentNodes (graph : Graph) (id : NodeId) :
    id ∈ silentNodes graph ↔ isSilent graph id = true := by
  constructor
  · intro member
    exact (List.mem_filter.mp member).2
  · intro silent
    obtain ⟨node, stored, _⟩ := (silent_iff_stored graph id).mp silent
    exact List.mem_filter.mpr ⟨(graph.nodes.mem_keys_iff id).mpr ⟨node, stored⟩, silent⟩

theorem mem_successors (graph : Graph) (source target : NodeId) :
    target ∈ successors graph source ↔
      isSilent graph source = true ∧ isSilent graph target = true ∧
        ∃ connection ∈ graph.connections,
          connection.source.node = source ∧ connection.target.node = target := by
  simp only [successors, List.mem_map, List.mem_filter, Bool.and_eq_true, decide_eq_true_eq]
  constructor
  · rintro ⟨connection, ⟨member, ⟨atSource, silent⟩, silentTarget⟩, rfl⟩
    exact ⟨silent, silentTarget, connection, member, atSource, rfl⟩
  · rintro ⟨silent, silentTarget, connection, member, atSource, rfl⟩
    exact ⟨connection, ⟨member, ⟨atSource, silent⟩, silentTarget⟩, rfl⟩

theorem silentNodes_length (graph : Graph) :
    (silentNodes graph).length =
      graph.nodes.values.countP fun node => !node.kind.isPresentable := by
  rw [silentNodes, ← List.countP_eq_length_filter, Keyed.keys, Keyed.values, List.countP_map,
    List.countP_map]
  refine List.countP_congr fun entry member => ?_
  have stored : graph.node? entry.1 = some entry.2 := graph.nodes.find_of_mem _ _ member
  simp [isSilent, stored]

theorem ends_of_clean_lint (graph : Graph)
    (clean : ∀ diagnostic ∈ graph.lint, diagnostic.finding ≠ .silentCycle) (id : NodeId)
    (silent : isSilent graph id = true) : Ends (successors graph) id := by
  have closed : ∀ node, successors graph node ⊆ silentNodes graph := fun node target outgoing =>
    (mem_silentNodes graph target).mpr ((mem_successors graph node target).mp outgoing).2.1
  cases searched : search (successors graph) (silentNodes graph) with
  | error node =>
      have reported : Diagnostic.atNode .silentCycle node ∈ graph.lint := by
        simp [Graph.lint, Lint.loops, find?, searched]
      exact absurd rfl (clean _ reported)
  | ok visited =>
      exact search_ends (successors graph) (silentNodes graph) closed visited searched id
        ((mem_silentNodes graph id).mpr silent)

/-- Different nodes stand on every path over silent nodes, so it is no longer than they are many. -/
theorem silent_path_length (graph : Graph)
    (clean : ∀ diagnostic ∈ graph.lint, diagnostic.finding ≠ .silentCycle) (path : List NodeId)
    (silent : ∀ id ∈ path, isSilent graph id = true)
    (linked : path.IsChain fun source target => target ∈ successors graph source) :
    path.length ≤ graph.nodes.values.countP fun node => !node.kind.isPresentable := by
  -- A node that came twice would lead back to itself.
  have distinct : path.Nodup := by
    have ordered : path.Pairwise
        (Relation.TransGen fun source target => target ∈ successors graph source) :=
      (linked.imp fun _ _ => Relation.TransGen.single).pairwise
    refine List.Pairwise.imp_of_mem ?_ ordered
    rintro source target member _ further rfl
    exact ends_not_back _ source (ends_of_clean_lint graph clean source (silent source member))
      further
  rw [← silentNodes_length]
  exact distinct.length_le_of_subset fun id member =>
    (mem_silentNodes graph id).mpr (silent id member)

end Dialogue.SilentLoop

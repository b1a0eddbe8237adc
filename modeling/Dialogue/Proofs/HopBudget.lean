import Dialogue.Proofs.SilentLoops
import Dialogue.Proofs.Steadiness
import Dialogue.Proofs.Trail
/-!
How many hops are enough. A trail runs along connections between silent nodes, so where the lint finds no
loop of them it can enter each once at most. Once there are enough, more of them change nothing.
-/
namespace Dialogue

open SilentLoop

variable {σ : Type}

/-- From a silent node on, a trail and the silent node behind it are linked by the connections that the
lint looks at. -/
theorem trail_linked (graph : Graph) (filed : graph.IsFiled) (registry : Registry σ) (strict : Bool)
    {source last : Endpoint} {scene reached : Scene σ} {visits : List Visit}
    (trail : Trail graph registry strict source scene visits last reached)
    (silent : isSilent graph source.node = true) (final : Endpoint)
    (leads : graph.target? last = some final) (silentFinal : isSilent graph final.node = true) :
    (∀ id ∈ visits.map Visit.node ++ [final.node], isSilent graph id = true) ∧
      (source.node :: (visits.map Visit.node ++ [final.node])).IsChain
        fun source target => target ∈ successors graph source := by
  induction trail with
  | @here source _ =>
      have linked := (mem_successors graph source.node final.node).mpr
        ⟨silent, silentFinal, _, graph.target_listed leads, rfl, rfl⟩
      simpa [silentFinal] using linked
  | @enter source target _ _ _ _ node _ _ _ leadsOn stored passes _ ih =>
      -- The lint follows the keys that connections name, the walk goes on from the id it finds there.
      have own := filed.id_eq stored
      have silentTarget : isSilent graph node.id = true := (silent_iff_stored graph node.id).mpr
        ⟨node, own ▸ stored, passes_silent _ _ _ _ _ _ _ _ passes⟩
      obtain ⟨silentRest, linkedRest⟩ := ih silentTarget leads
      have linked := (mem_successors graph source.node node.id).mpr
        ⟨silent, silentTarget, _, graph.target_listed leadsOn, rfl, own.symm⟩
      constructor
      · intro id member
        rcases List.mem_cons.mp member with same | later
        · exact same ▸ silentTarget
        · exact silentRest id later
      · exact List.isChain_cons_cons.mpr ⟨linked, linkedRest⟩

/-- On a graph without a loop of silent nodes, a trail that comes to one more silent node is shorter than
these nodes are many. -/
theorem trail_short (graph : Graph) (filed : graph.IsFiled)
    (clean : ∀ diagnostic ∈ graph.lint, diagnostic.finding ≠ .silentCycle)
    (registry : Registry σ) (strict : Bool) {source last : Endpoint} {scene reached : Scene σ}
    {visits : List Visit}
    (trail : Trail graph registry strict source scene visits last reached) (final : Endpoint)
    (leads : graph.target? last = some final) (silentFinal : isSilent graph final.node = true) :
    visits.length < graph.nodes.values.countP fun node => !node.kind.isPresentable := by
  cases trail with
  | here =>
      have short := silent_path_length graph clean [final.node] (by simpa using silentFinal)
        (by simp)
      simpa using short
  | @enter _ target _ _ _ _ node caused exit rest _ stored passes onward =>
      have silentTarget : isSilent graph node.id = true := (silent_iff_stored graph node.id).mpr
        ⟨node, filed.id_eq stored ▸ stored, passes_silent _ _ _ _ _ _ _ _ passes⟩
      obtain ⟨silentRest, linked⟩ := trail_linked graph filed registry strict onward silentTarget final
        leads silentFinal
      have short := silent_path_length graph clean _
        (List.forall_mem_cons.mpr ⟨silentTarget, silentRest⟩) linked
      simp only [List.length_cons, List.length_append, List.length_map] at short ⊢
      omega

/-- Where the lint finds no silent loop, as many hops as there are silent nodes are never used up. -/
theorem clean_lint_within_hops (graph : Graph) (filed : graph.IsFiled)
    (clean : ∀ diagnostic ∈ graph.lint, diagnostic.finding ≠ .silentCycle)
    (traversal : Traversal)
    (enough : (graph.nodes.values.countP fun node => !node.kind.isPresentable) ≤
      traversal.config.maxHops)
    (registry : Registry σ) (pin : Pin) (scene : Scene σ) (node : NodeId) (hops : Nat) :
    (traversal.advance graph registry pin scene).2.2 ≠ .failed (.cycleDetected node hops) := by
  intro detected
  cases position : traversal.position with
  | idle => simp [Traversal.advance, position] at detected
  | ended => simp [Traversal.advance, position] at detected
  | atNode here =>
      obtain ⟨visits, last, reached, stop, more, final, trail, within, halts⟩ :=
        trail_halts graph registry traversal.config.strict traversal.config.maxHops ⟨here, pin⟩
          scene
      have walked := (walk_of_trail graph registry traversal.config.strict trail
        traversal.config.maxHops [] within).trans (walk_of_halt graph registry _ _ halts _)
      simp only [Traversal.advance, position, walked] at detected
      cases halts with
      | @outOfHops target stored spent leads found silent =>
          -- The trail took every hop and one more silent node follows: that is one too many.
          have silentTarget := (silent_iff_stored graph target.node).mpr ⟨_, found, silent⟩
          have short := trail_short graph filed clean registry _ trail target leads silentTarget
          omega
      | presented => simp at detected
      | unconnected => simp at detected
      | missing => simp at detected
      | failed => simp at detected
      | crashed => simp at detected

/-- The demo story goes round and round, but never without a line or a choice on the way: its four silent
nodes make four hops enough. -/
theorem clean_lint_within_hops_demo :
    Demo.played.IsFiled ∧ (∀ diagnostic ∈ Demo.played.lint, diagnostic.finding ≠ .silentCycle) ∧
      (Demo.played.nodes.values.countP fun node => !node.kind.isPresentable) ≤ 4 ∧
      (Traversal.advance ⟨⟨4, false⟩, .atNode 3⟩ Demo.played
        (Machine.registry Terminal.machineType) 0 ⟨Demo.played.board, Terminal.host⟩).2.2 ≠
          .failed (.cycleDetected 4 4) := by
  have filed : Demo.played.IsFiled := by decide
  have clean : ∀ diagnostic ∈ Demo.played.lint, diagnostic.finding ≠ .silentCycle := by decide
  have enough : (Demo.played.nodes.values.countP fun node => !node.kind.isPresentable) ≤ 4 := by
    decide
  exact ⟨filed, clean, enough, clean_lint_within_hops Demo.played filed clean
    ⟨⟨4, false⟩, .atNode 3⟩ enough (Machine.registry Terminal.machineType) 0
    ⟨Demo.played.board, Terminal.host⟩ 4 4⟩

theorem halts_with_spare (graph : Graph) (registry : Registry σ) (strict : Bool) (fewer more : Nat)
    (enough : fewer ≤ more) {source : Endpoint} {scene final : Scene σ} {stop : Stop}
    {events : List Event} (within : ∀ node, stop ≠ .outOfHops node)
    (halts : Halts graph registry strict fewer source scene stop events final) :
    Halts graph registry strict more source scene stop events final := by
  cases halts with
  | presented leads stored shown => exact .presented leads stored shown
  | unconnected nowhere => exact .unconnected nowhere
  | missing leads gone => exact .missing leads gone
  | outOfHops => exact absurd rfl (within _)
  | failed left leads stored isStrict givesUp =>
      exact .failed (Nat.lt_of_lt_of_le left enough) leads stored isStrict givesUp
  | crashed left leads stored broke =>
      exact .crashed (Nat.lt_of_lt_of_le left enough) leads stored broke

/-- A walk that does not run out of hops follows the same trail to the same halt with more of them. -/
theorem walk_with_spare (graph : Graph) (registry : Registry σ) (strict : Bool) (fewer more : Nat)
    (enough : fewer ≤ more) (source : Endpoint) (events : List Event) (scene : Scene σ)
    (within : ∀ node, (walk graph registry strict fewer source events scene).stop ≠ .outOfHops node) :
    walk graph registry strict more source events scene =
      walk graph registry strict fewer source events scene := by
  obtain ⟨visits, last, reached, stop, caused, final, trail, short, halts⟩ :=
    trail_halts graph registry strict fewer source scene
  have walked := (walk_of_trail graph registry strict trail fewer events short).trans
    (walk_of_halt graph registry strict _ halts _)
  rw [walked] at within ⊢
  have spared := halts_with_spare graph registry strict _ (more - visits.length)
    (Nat.sub_le_sub_right enough _) within halts
  rw [walk_of_trail graph registry strict trail more events (Nat.le_trans short enough),
    walk_of_halt graph registry strict _ spared]

theorem detected_iff (graph : Graph) (registry : Registry σ) (config : Config) (here : NodeId)
    (pin : Pin) (scene : Scene σ) (node : NodeId) (hops : Nat) :
    (Traversal.advance ⟨config, .atNode here⟩ graph registry pin scene).2.2 =
        .failed (.cycleDetected node hops) ↔
      hops = config.maxHops ∧
        (walk graph registry config.strict config.maxHops ⟨here, pin⟩ [] scene).stop =
          .outOfHops node := by
  simp only [Traversal.advance]
  cases (walk graph registry config.strict config.maxHops ⟨here, pin⟩ [] scene).stop with
  | outOfHops spent => simp [and_comm, eq_comm]
  | _ => simp

/-- An advance that comes to anything but a loop comes to the same with more hops, and leaves the same
board, host and position behind. One that reports a loop would have done so with fewer. -/
theorem spare_hops_unused (graph : Graph) (registry : Registry σ) (strict : Bool)
    (position : Position) (pin : Pin) (scene : Scene σ) (fewer more : Nat) (enough : fewer ≤ more) :
    let short := Traversal.advance ⟨⟨fewer, strict⟩, position⟩ graph registry pin scene
    let long := Traversal.advance ⟨⟨more, strict⟩, position⟩ graph registry pin scene
    ((∀ node hops, short.2.2 ≠ .failed (.cycleDetected node hops)) →
        long.1.position = short.1.position ∧ long.2 = short.2) ∧
      ∀ node hops, long.2.2 = .failed (.cycleDetected node hops) →
        ∃ earlier, short.2.2 = .failed (.cycleDetected earlier fewer) := by
  intro short long
  cases position with
  | idle => exact ⟨fun _ => ⟨rfl, rfl⟩, nofun⟩
  | ended => exact ⟨fun _ => ⟨rfl, rfl⟩, nofun⟩
  | atNode here =>
      -- Either the short walk runs out of hops, or both walks are the same one.
      by_cases spent : ∃ earlier, short.2.2 = .failed (.cycleDetected earlier fewer)
      · obtain ⟨earlier, detected⟩ := spent
        exact ⟨fun undetected => absurd detected (undetected earlier fewer),
          fun _ _ _ => ⟨earlier, detected⟩⟩
      · have within (node : NodeId) :
            (walk graph registry strict fewer ⟨here, pin⟩ [] scene).stop ≠ .outOfHops node :=
          fun stopped => spent ⟨node, (detected_iff ..).mpr ⟨rfl, stopped⟩⟩
        have same := walk_with_spare graph registry strict fewer more enough ⟨here, pin⟩ [] scene
          within
        constructor
        · intro _
          simp only [short, long, Traversal.advance, same]
          generalize walk graph registry strict fewer ⟨here, pin⟩ [] scene = walked at within ⊢
          obtain ⟨stop, events, final⟩ := walked
          cases stop with
          | outOfHops node => exact absurd rfl (within node)
          | _ => exact ⟨rfl, rfl⟩
        · intro node hops detected
          obtain ⟨_, stopped⟩ := (detected_iff ..).mp detected
          exact absurd (same ▸ stopped) (within node)

theorem spare_hops_unused_demo :
    let advance hops := Traversal.advance ⟨⟨hops, false⟩, .atNode 3⟩ Demo.played
      (Machine.registry Terminal.machineType) 0 ⟨Demo.played.board, Terminal.host⟩
    2 ≤ 3 ∧ (advance 3).1.position = .atNode 7 ∧ (advance 3).2 = (advance 2).2 := by
  intro advance
  have enough : 2 ≤ 3 := by decide
  have spare := spare_hops_unused Demo.played (Machine.registry Terminal.machineType) false
    (.atNode 3) 0 ⟨Demo.played.board, Terminal.host⟩ 2 3 enough
  obtain ⟨position, same⟩ := spare.1 nofun
  exact ⟨enough, position, same⟩

end Dialogue

import Dialogue.Proofs.Sessions
import Mathlib.Logic.Relation
/-!
Games at the terminal, line by line. A dialogue may go in circles forever, but each line is read once and
leads to one call of the player at most, so a game on finite input comes to a stop. The answers on the page
are the player's own, so none that is picked from it is refused.
-/
namespace Dialogue

open Relation (ReflTransGen)

variable {σ : Type}

theorem Presentation.pick_within (count : Nat) (input : String) (index : Nat)
    (picked : pick? count input = some index) : index < count := by
  obtain ⟨number, chosen, rfl⟩ := Option.map_eq_some_iff.mp picked
  have bounds := (Option.filter_eq_some_iff.mp chosen).2
  simp only [Bool.and_eq_true, decide_eq_true_eq] at bounds
  omega

namespace Terminal

namespace Game

structure Sound (game : Game σ) : Prop where
  steady : game.player.registry.Steady
  agrees : ∀ presentation, game.stage = .showing presentation →
    game.player.shown = some presentation
  blameless : ∀ error, game.stage = .failed error → ∃ reason, error = .traversal reason
  unbroken : game.stage ≠ .crashed

theorem leave_sound (player : Player σ) (steady : player.registry.Steady) (pin : Pin)
    (host : Host σ) : (ofOutcome (player.leave pin host)).Sound := by
  have moves := player.leave_moves pin host
  have comesBack := player.leave_steady steady pin host
  generalize player.leave pin host = result at moves comesBack ⊢
  obtain ⟨after, left, outcome⟩ := result
  cases moves with
  | @presented _ _ node =>
      simp only [ofOutcome]
      cases said : player.present? node.id with
      | none => exact ⟨steady, nofun, nofun, nofun⟩
      | some presentation =>
          refine ⟨steady, ?_, nofun, nofun⟩
          rintro _ ⟨⟩
          rfl
  | ended => exact ⟨steady, nofun, nofun, nofun⟩
  | notStarted =>
      refine ⟨steady, nofun, ?_, nofun⟩
      rintro _ ⟨⟩
      exact ⟨_, rfl⟩
  | failed =>
      refine ⟨steady, nofun, ?_, nofun⟩
      rintro _ ⟨⟩
      exact ⟨_, rfl⟩
  | crashed => exact absurd rfl comesBack

theorem start_sound (player : Player σ) (steady : player.registry.Steady) (host : Host σ) :
    (start player host).Sound := by
  cases first : player.graph.start? with
  | none =>
      rw [start, player.start_unbegun host first]
      exact ⟨steady, nofun, nofun, nofun⟩
  | some id =>
      rw [start, player.start_leaves host id first]
      exact leave_sound (player.begun id) steady 0 host

theorem perform_sound (game : Game σ) (sound : game.Sound) (presentation : Presentation)
    (showing : game.stage = .showing presentation) (input : String) (move : Move)
    (means : presentation.move? input = some move) :
    (ofOutcome (game.player.perform move game.host)).Sound := by
  cases presentation with
  | line =>
      cases means
      exact leave_sound game.player sound.steady 0 game.host
  | choices answers =>
      -- The page and the player have the same answers, so counting them on the page is enough.
      obtain ⟨index, picked, rfl⟩ := Option.map_eq_some_iff.mp means
      have within := Presentation.pick_within answers.length input index picked
      rw [Player.perform, game.player.choose_leaves index game.host answers
        (sound.agrees _ showing) within]
      exact leave_sound game.player sound.steady index game.host

end Game

structure Sitting (σ : Type) where
  game : Game σ
  read : List String
  unread : List String
  /-- How often the player was called. -/
  calls : Nat
  printed : String

namespace Sitting

def begin (player : Player σ) (host : Host σ) (inputs : List String) : Sitting σ :=
  let game := Game.start player host
  ⟨game, [], inputs, 1, game.stage.opening⟩

/-- The next line is read. It is only asked for while a page is open. -/
inductive Reads : Sitting σ → Sitting σ → Prop where
  | moves {game : Game σ} {presentation : Presentation} {read unread : List String}
      {input printed : String} {calls : Nat} {move : Move}
      (showing : game.stage = .showing presentation)
      (means : presentation.move? input = some move) :
      Reads ⟨game, read, input :: unread, calls, printed⟩
        (let next := Game.ofOutcome (game.player.perform move game.host)
        ⟨next, read ++ [input], unread, calls + 1, printed ++ next.stage.opening⟩)
  | ignores {game : Game σ} {presentation : Presentation} {read unread : List String}
      {input printed : String} {calls : Nat}
      (showing : game.stage = .showing presentation)
      (meaningless : presentation.move? input = none) :
      Reads ⟨game, read, input :: unread, calls, printed⟩
        ⟨game, read ++ [input], unread, calls, printed ++ (presentation.hint ++ prompt)⟩

theorem reads_unique (sitting left right : Sitting σ) (one : Reads sitting left)
    (other : Reads sitting right) : left = right := by
  cases one with
  | moves showing means =>
      cases other with
      | moves showing' means' =>
          cases showing.symm.trans showing'
          cases means.symm.trans means'
          rfl
      | ignores showing' meaningless =>
          cases showing.symm.trans showing'
          cases means.symm.trans meaningless
  | ignores showing meaningless =>
      cases other with
      | moves showing' means =>
          cases showing.symm.trans showing'
          cases meaningless.symm.trans means
      | ignores showing' =>
          cases showing.symm.trans showing'
          rfl

/-- Each line that is read leaves fewer. -/
theorem reads_wellFounded : WellFounded fun after before : Sitting σ => Reads before after := by
  refine Subrelation.wf ?_ (measure fun sitting : Sitting σ => sitting.unread.length).wf
  intro after before reads
  cases reads with
  | moves => exact Nat.lt_succ_self _
  | ignores => exact Nat.lt_succ_self _

/-- What holds of a sitting on the given lines at any time. -/
structure Sound (inputs : List String) (sitting : Sitting σ) : Prop where
  game : sitting.game.Sound
  inOrder : sitting.read ++ sitting.unread = inputs
  /-- The start is a call without a line. -/
  sparing : sitting.calls ≤ sitting.read.length + 1

theorem begin_sound (player : Player σ) (steady : player.registry.Steady) (host : Host σ)
    (inputs : List String) : (begin player host inputs).Sound inputs :=
  ⟨Game.start_sound player steady host, rfl, Nat.le_refl 1⟩

theorem reads_sound (inputs : List String) (before after : Sitting σ)
    (sound : before.Sound inputs) (reads : Reads before after) : after.Sound inputs := by
  obtain ⟨game, inOrder, sparing⟩ := sound
  cases reads with
  | moves showing means =>
      constructor
      · exact Game.perform_sound _ game _ showing _ _ means
      · simpa using inOrder
      · simpa using sparing
  | ignores =>
      constructor
      · exact game
      · simpa using inOrder
      · simpa using Nat.le_succ_of_le sparing

theorem run_sound (inputs : List String) (first midway : Sitting σ) (sound : first.Sound inputs)
    (run : ReflTransGen Reads first midway) : midway.Sound inputs := by
  induction run with
  | refl => exact sound
  | tail _ reads ih => exact reads_sound inputs _ _ ih reads

def Rests (sitting : Sitting σ) : Prop := ∀ next, ¬Reads sitting next

theorem rests_iff (sitting : Sitting σ) :
    sitting.Rests ↔ (∃ presentation, sitting.game.stage = .showing presentation) →
      sitting.unread = [] := by
  obtain ⟨game, read, unread, calls, printed⟩ := sitting
  constructor
  · rintro rests ⟨presentation, showing⟩
    cases unread with
    | nil => rfl
    | cons input rest =>
        cases means : presentation.move? input with
        | some move => exact absurd (.moves showing means) (rests _)
        | none => exact absurd (.ignores showing means) (rests _)
  · intro exhausted next reads
    cases reads with
    | moves showing => cases exhausted ⟨_, showing⟩
    | ignores showing => cases exhausted ⟨_, showing⟩

end Sitting

namespace Game

theorem feedAll_over (game : Game σ) (closed : ∀ presentation, game.stage ≠ .showing presentation)
    (inputs : List String) : game.feedAll inputs = (game, game.stage.closing) := by
  induction inputs with
  | nil => rfl
  | cons input rest ih =>
      obtain ⟨player, host, stage⟩ := game
      cases stage with
      | showing presentation => exact absurd rfl (closed presentation)
      | finished => simp [feedAll, feed, ih]
      | failed => simp [feedAll, feed, ih]
      | crashed => simp [feedAll, feed, ih]

theorem feed_reads (game : Game σ) (presentation : Presentation)
    (showing : game.stage = .showing presentation) (read : List String) (input : String)
    (unread : List String) (calls : Nat) (printed : String) :
    ∃ called, Sitting.Reads ⟨game, read, input :: unread, calls, printed⟩
      ⟨(game.feed input).1, read ++ [input], unread, called, printed ++ (game.feed input).2⟩ := by
  cases means : presentation.move? input with
  | some move =>
      simp only [feed, showing, means]
      exact ⟨_, .moves showing means⟩
  | none =>
      simp only [feed, showing, means]
      exact ⟨_, .ignores showing means⟩

theorem feedAll_reads (game : Game σ) (read unread : List String) (calls : Nat)
    (printed : String) :
    ∃ last : Sitting σ, ReflTransGen Sitting.Reads ⟨game, read, unread, calls, printed⟩ last ∧
      last.Rests ∧ (game.feedAll unread).1 = last.game ∧
      printed ++ (game.feedAll unread).2 = last.printed ++ last.game.stage.closing := by
  -- Every line that is read leaves another game behind, so the induction is over all of them at once.
  induction unread generalizing game read calls printed with
  | nil => exact ⟨_, .refl, (Sitting.rests_iff _).mpr fun _ => rfl, rfl, rfl⟩
  | cons input rest ih =>
      by_cases shows : ∃ presentation, game.stage = .showing presentation
      · obtain ⟨presentation, showing⟩ := shows
        obtain ⟨called, reads⟩ := game.feed_reads presentation showing read input rest calls printed
        obtain ⟨last, run, rests, same, text⟩ := ih (game.feed input).1 (read ++ [input]) called
          (printed ++ (game.feed input).2)
        refine ⟨last, .head reads run, rests, same, ?_⟩
        rw [← text, String.append_assoc]
        rfl
      · have closed := feedAll_over game fun presentation showing => shows ⟨presentation, showing⟩
        refine ⟨_, .refl, (Sitting.rests_iff _).mpr fun open_ => absurd open_ shows, ?_, ?_⟩
        · rw [closed]
        · rw [closed]

end Game

structure ComesToRest (inputs : List String) (first last : Sitting σ) : Prop where
  /-- Nobody can go on reading forever. -/
  bounded : Acc (fun after before : Sitting σ => Sitting.Reads before after) first
  sound : ∀ midway, ReflTransGen Sitting.Reads first midway → midway.Sound inputs
  reached : ReflTransGen Sitting.Reads first last
  rests : last.Rests
  /-- Whatever was read, there is only one way on. -/
  unavoidable : ∀ midway, ReflTransGen Sitting.Reads first midway →
    ReflTransGen Sitting.Reads midway last
  stopped : last.game.stage = .finished ∨
    (∃ reason, last.game.stage = .failed (.traversal reason)) ∨
    ∃ presentation, last.game.stage = .showing presentation ∧ last.unread = []

theorem Sitting.stage_stopped (inputs : List String) (last : Sitting σ) (sound : last.Sound inputs)
    (rests : last.Rests) :
    last.game.stage = .finished ∨ (∃ reason, last.game.stage = .failed (.traversal reason)) ∨
      ∃ presentation, last.game.stage = .showing presentation ∧ last.unread = [] := by
  cases stage : last.game.stage with
  | finished => exact Or.inl rfl
  | failed error =>
      obtain ⟨reason, rfl⟩ := sound.game.blameless error stage
      exact Or.inr (Or.inl ⟨reason, rfl⟩)
  | showing presentation =>
      have exhausted := last.rests_iff.mp rests ⟨presentation, stage⟩
      exact Or.inr (Or.inr ⟨presentation, rfl, exhausted⟩)
  | crashed => exact absurd stage sound.game.unbroken

/-- A sitting at rest has nothing after it, so every run from where it was reached leads to it. -/
theorem Sitting.rests_unavoidable (first last midway : Sitting σ)
    (reached : ReflTransGen Reads first last) (rests : last.Rests)
    (run : ReflTransGen Reads first midway) : ReflTransGen Reads midway last := by
  have unique : Relator.RightUnique (Reads : Sitting σ → Sitting σ → Prop) := reads_unique
  rcases ReflTransGen.total_of_right_unique unique run reached with ahead | behind
  · exact ahead
  · rcases ReflTransGen.cases_head behind with same | ⟨next, reads, _⟩
    · rw [same]
    · exact absurd reads (rests next)

/-- With operations that come back, a game on any finite input settles: it reads line after line, calls the
player once to start and at most once for each line, and ends by itself, in an error of the traversal, or at
an open page with no line left. -/
theorem play_comes_to_rest (player : Player σ) (steady : player.registry.Steady) (host : Host σ)
    (inputs : List String) :
    ∃ last, ComesToRest inputs (Sitting.begin player host inputs) last ∧
      Game.play player host inputs = (last.game, last.printed ++ last.game.stage.closing) := by
  have begun := Sitting.begin_sound player steady host inputs
  obtain ⟨last, reached, rests, same, text⟩ :=
    (Game.start player host).feedAll_reads [] inputs 1 (Game.start player host).stage.opening
  refine ⟨last, ?_, Prod.ext same text⟩
  constructor
  · exact Sitting.reads_wellFounded.apply _
  · exact fun midway => Sitting.run_sound inputs _ midway begun
  · exact reached
  · exact rests
  · exact fun midway => Sitting.rests_unavoidable _ last midway reached rests
  · exact last.stage_stopped inputs (Sitting.run_sound inputs _ last begun reached) rests

theorem play_comes_to_rest_demo :
    let player : Player Machine :=
      .new Demo.played (Machine.registry machineType) Demo.strings.resolve .default
    let inputs := ["", "7", "1", ""]
    player.registry.Steady ∧
      ∃ last, ComesToRest inputs (Sitting.begin player host inputs) last ∧
        Game.play player host inputs = (last.game, last.printed ++ last.game.stage.closing) ∧
        last.game.stage =
          .showing (.choices ["Is the switch on?", "Turn the switch on.", "Walk away."]) := by
  intro player inputs
  have steady : player.registry.Steady := machine_steady machineType
  obtain ⟨last, rests, played⟩ := play_comes_to_rest player steady host inputs
  refine ⟨steady, last, rests, played, ?_⟩
  have ended : (Game.play player host inputs).1.stage =
      .showing (.choices ["Is the switch on?", "Turn the switch on.", "Walk away."]) := by
    decide +kernel
  rw [← ended, played]

end Terminal

end Dialogue

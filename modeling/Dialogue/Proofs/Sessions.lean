import Dialogue.Proofs.Steadiness
import Dialogue.Proofs.Trail
/-!
Sessions: a player after any calls, made with whatever host there is at the time. What a player shows and
where its traversal stands are kept apart, and every call that comes back keeps them in step.
-/
namespace Dialogue

variable {σ : Type}

inductive Request where
  | start
  | leave (pin : Pin)
  | choose (index : Nat)
  | setLocale (locale : String)
deriving DecidableEq, Repr

def Request.perform (request : Request) (player : Player σ) (host : Host σ) :
    Player σ × Host σ × Outcome PlayerError (Option Presentation) :=
  match request with
  | start => player.start host
  | leave pin => player.leave pin host
  | choose index => player.choose index host
  | setLocale locale => (player.setLocale locale, host, .done none)

structure Session (σ : Type) where
  player : Player σ
  /-- Whether it was ever started. -/
  started : Bool
  /-- The locale in which a node was presented last. -/
  spoken : String

namespace Session

def remember (now spoken : String) : Outcome PlayerError (Option Presentation) → String
  | .done (some _) => now
  | _ => spoken

def follow (session : Session σ) (request : Request) (host : Host σ) :
    Session σ × Outcome PlayerError (Option Presentation) :=
  let (player, _, outcome) := request.perform session.player host
  (⟨player, session.started || request = .start,
    remember session.player.locale session.spoken outcome⟩, outcome)

end Session

/-- What calls make of a new player, as long as no operation breaks down. -/
inductive Played (fresh : Player σ) : Session σ → Prop where
  | opened : Played fresh ⟨fresh, false, fresh.locale⟩
  | called {session : Session σ} (before : Played fresh session) (request : Request) (host : Host σ)
      (unbroken : (session.follow request host).2 ≠ .crashed) :
      Played fresh (session.follow request host).1

namespace Session

/-- What is shown belongs to where the traversal stands, in the locale of the moment it was presented. -/
structure InStep (fresh : Player σ) (session : Session σ) : Prop where
  graph : session.player.graph = fresh.graph
  localizer : session.player.localizer = fresh.localizer
  waiting : session.player.traversal.position = .idle → session.started = false
  standing : ∀ id, session.player.traversal.position = .atNode id →
    ∃ node, fresh.graph.node? id = some node ∧ node.kind.isPresentable = true
  shown : session.player.shown = session.player.traversal.current?.bind fun id =>
    Player.present? { fresh with locale := session.spoken } id

end Session

namespace Player

theorem present_of_presentable (player : Player σ) (id : NodeId) (node : Node)
    (stored : player.graph.node? id = some node) (presentable : node.kind.isPresentable = true) :
    ∃ presentation, player.present? id = some presentation := by
  obtain ⟨own, position, content⟩ := node
  cases content with
  | line line => exact ⟨_, by rw [present?, stored]; rfl⟩
  | choice answers => exact ⟨_, by rw [present?, stored]; rfl⟩
  | start => cases presentable
  | condition test => cases presentable
  | action change => cases presentable

/-- How a node is shown hangs on graph, localizer and locale alone. -/
theorem present_congr (left right : Player σ) (graph : left.graph = right.graph)
    (localizer : left.localizer = right.localizer) (locale : left.locale = right.locale)
    (id : NodeId) : left.present? id = right.present? id := by
  have texts : left.text = right.text := by
    funext key
    rw [text, text, graph, localizer, locale]
  rw [present?, present?, graph, texts]

def begun (player : Player σ) (id : NodeId) : Player σ :=
  { player with
    board := player.graph.board
    traversal := { player.traversal with position := .atNode id }
    shown := none }

theorem start_leaves (player : Player σ) (host : Host σ) (id : NodeId)
    (first : player.graph.start? = some id) : player.start host = (player.begun id).leave 0 host := by
  simp [start, Traversal.begin, Traversal.isEnded, Traversal.new, first, begun]

theorem choose_leaves (player : Player σ) (index : Nat) (host : Host σ) (answers : List String)
    (shown : player.shown = some (.choices answers)) (within : index < answers.length) :
    player.choose index host = player.leave index host := by
  simp [choose, shown, within]

def Offers (player : Player σ) (index : Nat) : Prop :=
  ∃ answers, player.shown = some (.choices answers) ∧ index < answers.length

theorem choose_refused (player : Player σ) (index : Nat) (host : Host σ)
    (unoffered : ¬player.Offers index) :
    ∃ error, player.choose index host = (player, host, .failed error) ∧
      ((error = .notAChoice ∧ ∀ answers, player.shown ≠ some (.choices answers)) ∨
        ∃ answers, player.shown = some (.choices answers) ∧
          error = .choiceOutOfRange index answers.length) := by
  unfold choose
  split
  next answers shown =>
    have beyond : ¬index < answers.length := fun within => unoffered ⟨answers, shown, within⟩
    rw [if_neg beyond]
    exact ⟨_, rfl, Or.inr ⟨answers, shown, rfl⟩⟩
  next other => exact ⟨_, rfl, Or.inl ⟨rfl, other⟩⟩

def unbegun (player : Player σ) : Player σ :=
  { player with
    board := player.graph.board
    traversal := { player.traversal with position := .ended }
    shown := none }

theorem start_unbegun (player : Player σ) (host : Host σ) (nowhere : player.graph.start? = none) :
    player.start host = (player.unbegun, host, .done none) := by
  simp [start, Traversal.begin, Traversal.isEnded, Traversal.new, nowhere, unbegun]

/-- What a request comes to: most leave a pin, of the player as it is or as it begins anew. -/
inductive Performs (player : Player σ) (host : Host σ) :
    Request → Player σ × Host σ × Outcome PlayerError (Option Presentation) → Prop where
  | unbegun (nowhere : player.graph.start? = none) :
      Performs player host .start (player.unbegun, host, .done none)
  | started {id : NodeId} (first : player.graph.start? = some id) :
      Performs player host .start ((player.begun id).leave 0 host)
  | left {pin : Pin} : Performs player host (.leave pin) (player.leave pin host)
  | chosen {index : Nat} (offered : player.Offers index) :
      Performs player host (.choose index) (player.leave index host)
  | refused {index : Nat} {error : PlayerError} (unoffered : ¬player.Offers index)
      (reason : error = .notAChoice ∨ ∃ count, error = .choiceOutOfRange index count) :
      Performs player host (.choose index) (player, host, .failed error)
  | relocated {locale : String} :
      Performs player host (.setLocale locale) (player.setLocale locale, host, .done none)

theorem performs (player : Player σ) (host : Host σ) (request : Request) :
    Performs player host request (request.perform player host) := by
  cases request with
  | start =>
      cases first : player.graph.start? with
      | none =>
          rw [Request.perform, player.start_unbegun host first]
          exact .unbegun first
      | some id =>
          rw [Request.perform, player.start_leaves host id first]
          exact .started first
  | leave pin => exact .left
  | choose index =>
      by_cases offered : player.Offers index
      · obtain ⟨answers, shown, within⟩ := offered
        rw [Request.perform, player.choose_leaves index host answers shown within]
        exact .chosen ⟨answers, shown, within⟩
      · obtain ⟨error, refused, reason⟩ := player.choose_refused index host offered
        rw [Request.perform, refused]
        refine .refused offered ?_
        exact reason.imp And.left fun ⟨answers, _, beyond⟩ => ⟨answers.length, beyond⟩
  | setLocale locale => exact .relocated

/-- What leaving a pin can answer, and the player it leaves then. Whatever it does, it may have written
to the board. A node is shown as the graph has it under the id that the node carries. -/
inductive Moves (before : Player σ) : Player σ → Outcome PlayerError (Option Presentation) → Prop where
  | presented {board : Board} {key : NodeId} {node : Node}
      (stored : before.graph.node? key = some node) (presentable : node.kind.isPresentable = true) :
      Moves before
        { before with
          board := board
          traversal := { before.traversal with position := .atNode node.id }
          shown := before.present? node.id }
        (.done (before.present? node.id))
  | ended {board : Board} :
      Moves before
        { before with
          board := board
          traversal := { before.traversal with position := .ended }
          shown := none }
        (.done none)
  | notStarted {board : Board} (idle : before.traversal.position = .idle) :
      Moves before { before with board := board, shown := none }
        (.failed (.traversal .notStarted))
  | failed {board : Board} {error : TraversalError} (started : error ≠ .notStarted) :
      Moves before
        { before with
          board := board
          traversal := { before.traversal with position := .ended }
          shown := none }
        (.failed (.traversal error))
  | crashed {board : Board} : Moves before { before with board := board } .crashed

theorem leave_moves (player : Player σ) (pin : Pin) (host : Host σ) :
    Moves player (player.leave pin host).1 (player.leave pin host).2.2 := by
  have settles := advance_settles player.graph player.registry player.traversal pin
    ⟨player.board, host⟩
  unfold leave
  generalize player.traversal.advance player.graph player.registry pin ⟨player.board, host⟩ =
    advanced at settles ⊢
  obtain ⟨traversal, scene, outcome⟩ := advanced
  cases settles with
  | presented stored presentable => exact .presented stored presentable
  | ended => exact .ended
  | notStarted idle => exact .notStarted idle
  | failed started => exact .failed started
  | crashed => exact .crashed

end Player

namespace Session

/-- Leaving a pin brings what is shown in step, whatever was shown before. -/
theorem leave_inStep (fresh before after : Player σ) (started : Bool) (spoken : String)
    (outcome : Outcome PlayerError (Option Presentation))
    (filed : fresh.graph.IsFiled) (graph : before.graph = fresh.graph)
    (localizer : before.localizer = fresh.localizer)
    (waiting : before.traversal.position = .idle → started = false)
    (moves : Player.Moves before after outcome) (unbroken : outcome ≠ .crashed) :
    InStep fresh ⟨after, started, remember before.locale spoken outcome⟩ := by
  cases moves with
  | @presented board key node stored presentable =>
      rw [← graph] at filed
      have own : fresh.graph.node? node.id = some node := by
        rw [← graph, filed.id_eq stored, stored]
      obtain ⟨presentation, said⟩ :=
        before.present_of_presentable node.id node (graph ▸ own) presentable
      rw [said]
      constructor
      · exact graph
      · exact localizer
      · nofun
      · rintro _ ⟨⟩
        exact ⟨node, own, presentable⟩
      · have same := Player.present_congr before { fresh with locale := before.locale } graph localizer
          rfl node.id
        exact said.symm.trans same
  | ended => exact ⟨graph, localizer, nofun, nofun, rfl⟩
  | notStarted idle =>
      constructor
      · exact graph
      · exact localizer
      · exact waiting
      · intro id position
        rw [idle] at position
        cases position
      · simp [Traversal.current?, idle]
  | failed => exact ⟨graph, localizer, nofun, nofun, rfl⟩
  | crashed => exact absurd rfl unbroken

theorem opened_inStep (graph : Graph) (registry : Registry σ) (localizer : Localizer)
    (settings : Settings) :
    InStep (.new graph registry localizer settings)
      ⟨.new graph registry localizer settings, false, settings.locale⟩ :=
  ⟨rfl, rfl, fun _ => rfl, nofun, rfl⟩

theorem follow_inStep (fresh : Player σ) (filed : fresh.graph.IsFiled) (session : Session σ)
    (request : Request) (host : Host σ) (inStep : InStep fresh session)
    (unbroken : (session.follow request host).2 ≠ .crashed) :
    InStep fresh (session.follow request host).1 := by
  obtain ⟨player, started, spoken⟩ := session
  obtain ⟨graph, localizer, waiting, standing, shown⟩ := inStep
  have performs := player.performs host request
  unfold follow at unbroken ⊢
  simp only at unbroken ⊢
  generalize request.perform player host = result at performs unbroken ⊢
  cases performs with
  | unbegun => exact ⟨graph, localizer, nofun, nofun, rfl⟩
  | @started id _ =>
      exact leave_inStep fresh (player.begun id) _ _ _ _ filed graph localizer nofun
        (Player.leave_moves _ 0 host) unbroken
  | left =>
      exact leave_inStep fresh player _ _ _ _ filed graph localizer (by simpa using waiting)
        (player.leave_moves _ host) unbroken
  | chosen =>
      exact leave_inStep fresh player _ _ _ _ filed graph localizer (by simpa using waiting)
        (player.leave_moves _ host) unbroken
  | refused => exact ⟨graph, localizer, by simpa using waiting, standing, shown⟩
  | relocated =>
      exact ⟨graph, localizer, by simpa [Player.setLocale] using waiting, standing, shown⟩

theorem played_inStep (graph : Graph) (filed : graph.IsFiled) (registry : Registry σ)
    (localizer : Localizer) (settings : Settings) (session : Session σ)
    (played : Played (.new graph registry localizer settings) session) :
    InStep (.new graph registry localizer settings) session := by
  induction played with
  | opened => exact opened_inStep graph registry localizer settings
  | called _ request host unbroken ih => exact follow_inStep _ filed _ request host ih unbroken

structure Coherent (graph : Graph) (localizer : Localizer) (session : Session σ) : Prop where
  /-- Something is shown exactly where the traversal stands at a line or a choice. -/
  shown_iff : session.player.shown.isSome = true ↔
    ∃ id node, session.player.traversal.position = .atNode id ∧ graph.node? id = some node ∧
      node.kind.isPresentable = true
  line_iff : ∀ id node, session.player.traversal.position = .atNode id →
    graph.node? id = some node →
      ((∃ text portrait, session.player.shown = some (.line text portrait)) ↔ node.kind = .line)
  choices_iff : ∀ id node, session.player.traversal.position = .atNode id →
    graph.node? id = some node →
      ((∃ answers, session.player.shown = some (.choices answers)) ↔ node.kind = .choice)
  /-- A line is said in the locale of the moment in which it was presented. -/
  line_said : ∀ id node line, session.player.traversal.position = .atNode id →
    graph.node? id = some node → node.content = .line line →
      session.player.shown =
        some (.line (localizer.text graph.table line.key session.spoken) line.portrait)
  /-- There is one answer for each output pin, said in that locale too. -/
  answers_said : ∀ id node keys, session.player.traversal.position = .atNode id →
    graph.node? id = some node → node.content = .choice keys →
      ∃ answers, session.player.shown = some (.choices answers) ∧
        answers.length = node.outputs.length ∧
        ∀ (i : Nat) (key : Option String), keys[i]? = some key →
          answers[i]? = some (localizer.text graph.table key session.spoken)
  finished_iff : session.started = true →
    (session.player.isFinished = true ↔ session.player.shown = none)
  /-- An error of the traversal ends the session, unless it says that nothing was started. -/
  failed_finished : ∀ request host error,
    (session.follow request host).2 = .failed (.traversal error) → error ≠ .notStarted →
      (session.follow request host).1.player.isFinished = true
  choose_offered : ∀ index host, session.player.Offers index →
    session.player.choose index host = session.player.leave index host
  choose_unoffered : ∀ index host, ¬session.player.Offers index →
    ∃ error, session.player.choose index host = (session.player, host, .failed error) ∧
      ((error = .notAChoice ∧ ∀ answers, session.player.shown ≠ some (.choices answers)) ∨
        ∃ answers, session.player.shown = some (.choices answers) ∧
          error = .choiceOutOfRange index answers.length)

theorem follow_failed (session : Session σ) (request : Request) (host : Host σ)
    (error : TraversalError)
    (failed : (session.follow request host).2 = .failed (.traversal error))
    (started : error ≠ .notStarted) :
    (session.follow request host).1.player.isFinished = true := by
  have left (player : Player σ) (pin : Pin)
      (failed : (player.leave pin host).2.2 = .failed (.traversal error)) :
      (player.leave pin host).1.isFinished = true := by
    have moves := player.leave_moves pin host
    generalize player.leave pin host = result at moves failed ⊢
    obtain ⟨after, _, outcome⟩ := result
    subst failed
    cases moves with
    | notStarted => exact absurd rfl started
    | failed => rfl
  have performs := session.player.performs host request
  unfold follow at failed ⊢
  simp only at failed ⊢
  generalize request.perform session.player host = result at performs failed ⊢
  cases performs with
  | unbegun => cases failed
  | started => exact left _ _ failed
  | left => exact left _ _ failed
  | chosen => exact left _ _ failed
  | refused _ reason =>
      rcases reason with rfl | ⟨_, rfl⟩
      · cases failed
      · cases failed
  | relocated => cases failed

theorem shown_at (fresh : Player σ) (session : Session σ) (inStep : InStep fresh session)
    (id : NodeId) (standing : session.player.traversal.position = .atNode id) :
    session.player.shown = Player.present? { fresh with locale := session.spoken } id := by
  rw [inStep.shown, Traversal.current?, standing]
  rfl

theorem shown_isSome (fresh : Player σ) (session : Session σ) (inStep : InStep fresh session)
    (id : NodeId) (standing : session.player.traversal.position = .atNode id) :
    session.player.shown.isSome = true := by
  obtain ⟨node, stored, presentable⟩ := inStep.standing id standing
  obtain ⟨presentation, said⟩ := Player.present_of_presentable
    { fresh with locale := session.spoken } id node stored presentable
  rw [shown_at fresh session inStep id standing, said]
  rfl

theorem shown_kind (fresh : Player σ) (session : Session σ) (inStep : InStep fresh session)
    (id : NodeId) (node : Node) (standing : session.player.traversal.position = .atNode id)
    (stored : fresh.graph.node? id = some node) :
    ((∃ text portrait, session.player.shown = some (.line text portrait)) ↔ node.kind = .line) ∧
      ((∃ answers, session.player.shown = some (.choices answers)) ↔ node.kind = .choice) := by
  rw [shown_at fresh session inStep id standing, Player.present?, stored]
  obtain ⟨own, position, content⟩ := node
  cases content <;> simp [Node.kind, Content.kind]

/-- In every session, whatever was called and however the host changed in between. -/
theorem session_coherent (graph : Graph) (filed : graph.IsFiled) (registry : Registry σ)
    (localizer : Localizer) (settings : Settings) (session : Session σ)
    (played : Played (.new graph registry localizer settings) session) :
    Coherent graph localizer session := by
  have inStep := played_inStep graph filed registry localizer settings session played
  have shown := shown_at _ session inStep
  have visible := shown_isSome _ session inStep
  constructor
  · cases position : session.player.traversal.position with
    | idle => simp [inStep.shown, Traversal.current?, position]
    | ended => simp [inStep.shown, Traversal.current?, position]
    | atNode id =>
        obtain ⟨node, stored, presentable⟩ := inStep.standing id position
        constructor
        · intro _
          exact ⟨id, node, rfl, stored, presentable⟩
        · intro _
          exact visible id position
  · intro id node standing stored
    exact (shown_kind _ session inStep id node standing stored).1
  · intro id node standing stored
    exact (shown_kind _ session inStep id node standing stored).2
  · intro id node line standing stored content
    rw [shown id standing, Player.present?]
    simp [Player.new, stored, content, Player.text]
  · intro id node keys standing stored content
    refine ⟨keys.map fun key => localizer.text graph.table key session.spoken, ?_, ?_, ?_⟩
    · rw [shown id standing, Player.present?]
      simp [Player.new, stored, content, Player.text]
    · simp [Node.outputs, Node.kind, Content.kind, content, NodeKind.outputs]
    · intro i key found
      simp [found]
  · intro started
    cases position : session.player.traversal.position with
    | idle =>
        rw [inStep.waiting position] at started
        cases started
    | ended =>
        simp [Player.isFinished, Traversal.isEnded, position, inStep.shown, Traversal.current?]
    | atNode id =>
        have visible := visible id position
        rw [Option.isSome_iff_ne_none] at visible
        simp [Player.isFinished, Traversal.isEnded, position, visible]
  · exact fun request host error => session.follow_failed request host error
  · rintro index host ⟨answers, said, within⟩
    exact session.player.choose_leaves index host answers said within
  · exact fun index host => session.player.choose_refused index host

/-- The answers of the demo story were asked for in French and are still shown so in an English session. -/
theorem session_coherent_demo :
    Demo.played.IsFiled ∧ ∃ session : Session Machine,
      Played (.new Demo.played (Machine.registry Terminal.machineType) Demo.strings.resolve .default)
        session ∧
      session.player.locale = "en" ∧
      session.player.shown = some (.choices
        ["L'interrupteur est-il allumé ?", "Allumer l'interrupteur.", "S'éloigner."]) ∧
      Coherent Demo.played Demo.strings.resolve session := by
  let fresh : Player Machine :=
    .new Demo.played (Machine.registry Terminal.machineType) Demo.strings.resolve .default
  have new : Played fresh ⟨fresh, false, fresh.locale⟩ := .opened
  have greeted := new.called .start Terminal.host (by decide +kernel)
  have switched := greeted.called (.setLocale "fr") Terminal.host nofun
  have asked := switched.called (.leave 0) Terminal.host (by decide +kernel)
  have played := asked.called (.setLocale "en") Terminal.host nofun
  have filed : Demo.played.IsFiled := by decide +kernel
  exact ⟨filed, _, played, rfl, by decide +kernel, session_coherent _ filed _ _ _ _ played⟩

end Session

end Dialogue

import Dialogue.Player
/-!
A game at the terminal. It shows a page and waits for a line; after a line of speech any input goes on,
and answers are picked by number, counted from one. Each input leads to at most one move of the player.
-/
namespace Dialogue

inductive Move where
  | leave (pin : Pin)
  | choose (index : Nat)
deriving DecidableEq, Repr

variable {σ : Type}

def Player.perform (player : Player σ) (move : Move) (host : Host σ) :
    Player σ × Host σ × Outcome PlayerError (Option Presentation) :=
  match move with
  | .leave pin => player.leave pin host
  | .choose index => player.choose index host

namespace Presentation

def page : Presentation → String
  | line text none => text ++ "\n"
  | line text (some portrait) => "[" ++ portrait ++ "] " ++ text ++ "\n"
  | choices answers =>
      String.join (answers.mapIdx fun i answer => "  " ++ toString (i + 1) ++ ". " ++ answer ++ "\n")

def pick? (count : Nat) (input : String) : Option Nat :=
  ((Whole.unsigned? (Text.trim input.toList)).filter fun n => 1 ≤ n && n ≤ count).map (· - 1)

def move? (presentation : Presentation) (input : String) : Option Move :=
  match presentation with
  | line _ _ => some (.leave 0)
  | choices answers => (pick? answers.length input).map .choose

def hint : Presentation → String
  | line _ _ => ""
  | choices answers => "pick 1-" ++ toString answers.length ++ "\n"

end Presentation

namespace Terminal

def prompt : String := "> "

def farewell : String := "(end of dialogue)\n"

inductive Stage where
  | showing (presentation : Presentation)
  | finished
  | failed (error : PlayerError)
  | crashed
deriving DecidableEq, Repr

namespace Stage

def opening : Stage → String
  | showing presentation => presentation.page ++ prompt
  | finished => farewell
  | failed _ | crashed => ""

/-- What is printed when the input ends here. Only an open choice ends without a farewell. -/
def closing : Stage → String
  | showing (.line _ _) => farewell
  | _ => ""

end Stage

structure Game (σ : Type) where
  player : Player σ
  host : Host σ
  stage : Stage

namespace Game

def ofOutcome : Player σ × Host σ × Outcome PlayerError (Option Presentation) → Game σ
  | (player, host, .done (some presentation)) => ⟨player, host, .showing presentation⟩
  | (player, host, .done none) => ⟨player, host, .finished⟩
  | (player, host, .failed error) => ⟨player, host, .failed error⟩
  | (player, host, .crashed) => ⟨player, host, .crashed⟩

def start (player : Player σ) (host : Host σ) : Game σ := ofOutcome (player.start host)

def feed (game : Game σ) (input : String) : Game σ × String :=
  match game.stage with
  | .showing presentation =>
      match presentation.move? input with
      | some move =>
          let next := ofOutcome (game.player.perform move game.host)
          (next, next.stage.opening)
      | none => (game, presentation.hint ++ prompt)
  | _ => (game, "")

def feedAll (game : Game σ) : List String → Game σ × String
  | [] => (game, game.stage.closing)
  | input :: rest =>
      let (next, printed) := game.feed input
      let (last, later) := next.feedAll rest
      (last, printed ++ later)

def play (player : Player σ) (host : Host σ) (inputs : List String) : Game σ × String :=
  let game := start player host
  let (last, printed) := game.feedAll inputs
  (last, game.stage.opening ++ printed)

end Game

end Terminal

end Dialogue

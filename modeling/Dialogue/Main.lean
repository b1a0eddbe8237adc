import Dialogue.Terminal.Program
/-!
The command line: plays a dialogue over standard input and output.
-/
namespace Dialogue.Terminal

def readFile? (path : String) : IO (Option String) := do
  try return some (← IO.FS.readFile path) catch _ => return none

def put (text : String) : IO Unit := do
  let out ← IO.getStdout
  out.putStr text
  out.flush

partial def converse (game : Game Machine) : IO Stage := do
  match game.stage with
  | .showing _ =>
      match Text.lines (← (← IO.getStdin).getLine) with
      | input :: _ =>
          let (next, printed) := game.feed input
          put printed
          converse next
      | [] =>
          put game.stage.closing
          return game.stage
  | stage => return stage

def finish (ending : Ending) : IO UInt32 := do
  if let some complaint := ending.complaint then IO.eprintln complaint
  return ending.code.toUInt32

def serve (words : List String) : IO UInt32 := do
  match ← (prepare readFile? words).run with
  | .error error => finish (complain error.message)
  | .ok player =>
      let game := Game.start player host
      put game.stage.opening
      finish (← converse game).ending

end Dialogue.Terminal

def main (words : List String) : IO UInt32 := Dialogue.Terminal.serve words

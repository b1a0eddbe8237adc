import Dialogue.Demo
import Dialogue.Storage.Asset
import Dialogue.Terminal.Game
/-!
The program from its arguments to its exit code. The words of the command line are options with a value in
any order, and at most one asset. The host the program plays with owns one machine.
-/
namespace Dialogue.Terminal

inductive Flag where
  | strings
  | settings
  | locale
deriving DecidableEq, Repr

namespace Flag

def word : Flag → String
  | strings => "--strings"
  | settings => "--settings"
  | locale => "--locale"

def ofWord? (word : String) : Option Flag :=
  [strings, settings, locale].find? fun flag => flag.word == word

end Flag

structure Arguments where
  asset : Option String
  strings : Option String
  settings : Option String
  locale : Option String
deriving DecidableEq, Repr

inductive ArgumentError where
  | missingValue (flag : Flag)
  | unknownOption (word : String)
  | unexpected (word : String)
deriving DecidableEq, Repr

def usage : String :=
  "usage: dialogue-runner [ASSET.dialogue] [--strings FILE] [--settings FILE] [--locale LOCALE]"

def ArgumentError.message : ArgumentError → String
  | .missingValue flag => flag.word ++ " expects a value\n" ++ usage
  | .unknownOption word => "unknown option " ++ word ++ "\n" ++ usage
  | .unexpected word => "unexpected argument " ++ word ++ "\n" ++ usage

namespace Arguments

def none : Arguments := ⟨Option.none, Option.none, Option.none, Option.none⟩

def set (arguments : Arguments) (value : String) : Flag → Arguments
  | .strings => { arguments with strings := some value }
  | .settings => { arguments with settings := some value }
  | .locale => { arguments with locale := some value }

def isOption (word : String) : Bool := ['-', '-'].isPrefixOf word.toList

/-- Reads the words left to right. The word after an option is its value, whatever it looks like; an
option given again gets the later value. -/
def take (arguments : Arguments) : List String → Except ArgumentError Arguments
  | [] => .ok arguments
  | word :: rest =>
      match Flag.ofWord? word with
      | some flag =>
          match rest with
          | [] => .error (.missingValue flag)
          | value :: rest => take (arguments.set value flag) rest
      | Option.none =>
          if isOption word then .error (.unknownOption word)
          else if arguments.asset.isSome then .error (.unexpected word)
          else take { arguments with asset := some word } rest

def parse (words : List String) : Except ArgumentError Arguments := take none words

end Arguments

/-!
What a game is played with: settings, a graph and string tables, from files or built in. Settings are
looked at first, then the graph, then the strings; the first thing that cannot be had is reported.
-/

structure Supply where
  settings : Settings
  graph : Graph
  strings : StringTables

inductive SupplyError where
  | arguments (error : ArgumentError)
  | settingsUnread (path : String)
  | settingsUnfit (path : String)
  | asset (path : String) (error : AssetError)
  | stringsUnread (path : String)
  | stringsUnfit (path : String)
deriving DecidableEq, Repr

def SupplyError.message : SupplyError → String
  | .arguments error => error.message
  | .settingsUnread path => "reading settings " ++ path
  | .settingsUnfit path => "parsing settings " ++ path
  | .asset path _ => "loading " ++ path
  | .stringsUnread path => "reading strings " ++ path
  | .stringsUnfit path => "parsing strings " ++ path

namespace Supply

variable {m : Type → Type} [Monad m]

abbrev Reading (m : Type → Type) := String → m (Option String)

def settingsIn (read : Reading m) (arguments : Arguments) : ExceptT SupplyError m Settings := do
  let stored ← match arguments.settings with
    | none => pure .default
    | some path =>
        match ← read path with
        | none => throw (.settingsUnread path)
        | some text =>
            match readText? Settings.ofJson? text with
            | none => throw (.settingsUnfit path)
            | some settings => pure settings
  return { stored with locale := arguments.locale.getD stored.locale }

def stringsIn (read : Reading m) (otherwise : StringTables) :
    Option String → ExceptT SupplyError m StringTables
  | none => return otherwise
  | some path => do
      match ← read path with
      | none => throw (.stringsUnread path)
      | some text =>
          match readText? StringTables.ofJson? text with
          | none => throw (.stringsUnfit path)
          | some strings => return strings

def graphIn (read : Reading m) : Option String → ExceptT SupplyError m (Graph × StringTables)
  | none => return (Demo.graph "machine" "visits", Demo.strings)
  | some path => do
      match Asset.ofFile path (← read path) with
      | .error error => throw (.asset path error)
      | .ok asset => return (asset.graph, .empty)

def gather (read : Reading m) (arguments : Arguments) : ExceptT SupplyError m Supply := do
  let settings ← settingsIn read arguments
  let (graph, strings) ← graphIn read arguments.asset
  return ⟨settings, graph, ← stringsIn read strings arguments.strings⟩

end Supply

def machineType : HostType Machine Machine := ⟨"Machine", id, some⟩

def host : Host Machine := (Host.empty.insert machineType Machine.key .off).2

def Supply.player (supply : Supply) : Player Machine :=
  .new (supply.graph.bindHandles host).2 (Machine.registry machineType) supply.strings.resolve
    supply.settings

def prepare {m : Type → Type} [Monad m] (read : Supply.Reading m) (words : List String) :
    ExceptT SupplyError m (Player Machine) :=
  match Arguments.parse words with
  | .error error => throw (.arguments error)
  | .ok arguments => Supply.player <$> Supply.gather read arguments

structure Ending where
  code : Nat
  complaint : Option String
deriving DecidableEq, Repr

def complain (message : String) : Ending := ⟨1, some ("Error: " ++ message)⟩

def Stage.ending : Stage → Ending
  | .showing _ | .finished => ⟨0, none⟩
  | .failed error => complain error.message
  | .crashed => ⟨101, none⟩

/-- The ending and all that is printed. The game goes on with the input that no file used up. -/
def run (tree : FileTree) (words : List String) : Ending × String :=
  match (prepare FileTree.read words).run.run tree with
  | (.error error, _) => (complain error.message, "")
  | (.ok player, tree) =>
      let (last, printed) := Game.play player host (Text.lines tree.input)
      (last.stage.ending, printed)

end Dialogue.Terminal

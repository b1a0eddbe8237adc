import Dialogue.Traversal
/-!
A session: one player going through a graph, with a board of its own, seeing texts in a locale. The
graph itself is never written to, and starting again begins from its board. Graphs hold keys; string
tables hold the texts, by table, locale and key.
-/
namespace Dialogue

abbrev Localizer := String → String → String → Option String

structure StringTables where
  tables : Keyed String (Keyed String (Keyed String String))

namespace StringTables

def empty : StringTables := ⟨.empty⟩

def insert (strings : StringTables) (table locale key text : String) : StringTables :=
  let locales := (strings.tables.find? table).getD .empty
  let entries := (locales.find? locale).getD .empty
  ⟨strings.tables.insert table (locales.insert locale (entries.insert key text))⟩

def locales (strings : StringTables) (table : String) : List String :=
  match strings.tables.find? table with
  | some locales => locales.keys
  | none => []

/-- A locale the table does not have is replaced by the table's first one; a key missing from a locale
it has is not looked for elsewhere. -/
def resolve (strings : StringTables) : Localizer := fun table key locale => do
  let locales ← strings.tables.find? table
  let entries ← (locales.find? locale) <|> locales.values.head?
  entries.find? key

end StringTables

namespace Localizer

def missingKey : String := "No set key"

def missingText : String := "No dialog translation found"

def text (localizer : Localizer) (table : String) (key : Option String) (locale : String) : String :=
  match key with
  | none => missingKey
  | some key =>
      if Text.allBlank key then missingKey
      else (localizer table key locale).getD missingText

end Localizer

variable {σ : Type}

structure Settings where
  locale : String
  traversal : Config
deriving DecidableEq, Repr

def Settings.default : Settings := ⟨"en", .default⟩

inductive Presentation where
  | line (text : String) (portrait : Option String)
  | choices (answers : List String)
deriving DecidableEq, Repr

inductive PlayerError where
  | traversal (error : TraversalError)
  | notAChoice
  | choiceOutOfRange (index count : Nat)
deriving DecidableEq, Repr

def PlayerError.message : PlayerError → String
  | .traversal error => error.message
  | .notAChoice => "the current node is not a choice"
  | .choiceOutOfRange index count =>
      "choice " ++ toString index ++ " is out of range (" ++ toString count ++ " available)"

structure Player (σ : Type) where
  graph : Graph
  registry : Registry σ
  localizer : Localizer
  board : Board
  traversal : Traversal
  locale : String
  shown : Option Presentation

namespace Player

def new (graph : Graph) (registry : Registry σ) (localizer : Localizer) (settings : Settings) :
    Player σ where
  graph := graph
  registry := registry
  localizer := localizer
  board := graph.board
  traversal := .new settings.traversal
  locale := settings.locale
  shown := none

def setLocale (player : Player σ) (locale : String) : Player σ := { player with locale := locale }

def isFinished (player : Player σ) : Bool := player.traversal.isEnded

def text (player : Player σ) (key : Option String) : String :=
  player.localizer.text player.graph.table key player.locale

def present? (player : Player σ) (id : NodeId) : Option Presentation :=
  match (player.graph.node? id).map Node.content with
  | some (.line line) => some (.line (player.text line.key) line.portrait)
  | some (.choice answers) => some (.choices (answers.map player.text))
  | _ => none

/-- Leaves what is shown through a pin. An error ends the session; a crash leaves what was shown. -/
def leave (player : Player σ) (pin : Pin) (host : Host σ) :
    Player σ × Host σ × Outcome PlayerError (Option Presentation) :=
  let (traversal, scene, outcome) :=
    player.traversal.advance player.graph player.registry pin ⟨player.board, host⟩
  let moved := { player with traversal := traversal, board := scene.board }
  match outcome with
  | .done advance =>
      let shown := match advance.step with
        | .presented id => player.present? id
        | .ended => none
      ({ moved with shown := shown }, scene.host, .done shown)
  | .failed error => ({ moved with shown := none }, scene.host, .failed (.traversal error))
  | .crashed => (moved, scene.host, .crashed)

def start (player : Player σ) (host : Host σ) :
    Player σ × Host σ × Outcome PlayerError (Option Presentation) :=
  let traversal := (Traversal.new player.traversal.config).begin player.graph
  let fresh := { player with board := player.graph.board, traversal := traversal, shown := none }
  if traversal.isEnded then (fresh, host, .done none) else fresh.leave 0 host

def choose (player : Player σ) (index : Nat) (host : Host σ) :
    Player σ × Host σ × Outcome PlayerError (Option Presentation) :=
  match player.shown with
  | some (.choices answers) =>
      if index < answers.length then player.leave index host
      else (player, host, .failed (.choiceOutOfRange index answers.length))
  | _ => (player, host, .failed .notAChoice)

end Player

end Dialogue

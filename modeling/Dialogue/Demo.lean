import Dialogue.Player
/-!
The story that is told when no other is given: a machine with a switch and a light, in two languages.
The machine's operations show how calls are picked, how arguments arrive and what an operation may say.
-/
namespace Dialogue

structure Machine where
  isOn : Bool
deriving DecidableEq, Repr

namespace Machine

def key : String := "sample"

def title : String := "SampleObject"

def off : Machine := ⟨false⟩

def argument (arguments : List Value) (index : Nat) : Value := arguments[index]?.getD .empty

variable {σ : Type}

def question (type : HostType σ Machine) (name : String) (parameters : List (String × Kind))
    (answer : Machine → List Value → Bool) : Operation σ :=
  .on type name parameters (.value .boolean) fun machine arguments =>
    ⟨machine, [], some (.boolean (answer machine arguments))⟩

def saying (type : HostType σ Machine) (name : String) (parameters : List (String × Kind)) :
    Operation σ :=
  .on type name parameters .nothing fun machine arguments =>
    ⟨machine, [String.join (arguments.map Value.asText)], some .empty⟩

def operations (type : HostType σ Machine) : List (Operation σ) :=
  [question type "TestBooleanMethod" [] fun _ _ => true,
   question type "TestBooleanMethod" [("test", .boolean)] fun _ arguments =>
     (argument arguments 0).asBoolean,
   question type "CompareStringTest" [("s1", .text), ("s2", .text)] fun _ arguments =>
     (argument arguments 0).asText == (argument arguments 1).asText,
   question type "CompareObjectTest" [("o1", .handle), ("o2", .handle)] fun _ arguments =>
     match (argument arguments 0).asHandle?, (argument arguments 1).asHandle? with
     | some left, some right => left.sameObject right
     | _, _ => false,
   question type "GetValueTest" [] fun machine _ => machine.isOn,
   .on type "SetValueTest" [("value", .boolean)] .nothing fun _ arguments =>
     ⟨⟨(argument arguments 0).asBoolean⟩, [], some .empty⟩,
   saying type "TestMethodProperty" [("v", .text)],
   saying type "TestMethodProperty" [("v", .integer)],
   saying type "TestMethodProperty" [("v", .real)],
   saying type "TestMethodProperty" [("v", .boolean)],
   saying type "TestMethodProperty" [("v", .handle)],
   saying type "TestSubstr" [("s1", .text), ("s2", .text)]]

def registry (type : HostType σ Machine) : Registry σ :=
  Registry.empty.register type.name title (operations type)

end Machine

end Dialogue

namespace Dialogue.Demo

def table : String := "Demo"

def board (machine visits : PropertyId) : Board :=
  ⟨[⟨machine, "sample", .handle, .handle (.detached Machine.key)⟩,
    ⟨visits, "visits", .integer, .integer 0⟩]⟩

def contents (machine visits : PropertyId) : List (NodeId × Node) :=
  [(1, .of .start),
   (2, .line "intro"),
   (3, .choice ["ask", "flip", "leave"]),
   (4, .of (.action ⟨[⟨some visits, .mutate .append (.integer 1)⟩]⟩)),
   (5, .of (.condition ⟨[⟨some machine, .call "GetValueTest()" []⟩], .all⟩)),
   (6, .line "flag_on"),
   (7, .line "flag_off"),
   (8, .of (.action ⟨[⟨some machine, .call "SetValueTest(bool value)" [.boolean true]⟩]⟩)),
   (9, .line "flag_set"),
   (10, .line "bye")]

def connections : List Connection :=
  [.flow 1 0 2, .flow 2 0 3, .flow 3 0 4, .flow 4 0 5, .flow 5 0 6, .flow 5 1 7, .flow 6 0 3,
   .flow 7 0 3, .flow 3 1 8, .flow 8 0 9, .flow 9 0 3, .flow 3 2 10]

def graph (machine visits : PropertyId) : Graph where
  table := table
  nodes := Graph.file (contents machine visits)
  connections := connections
  board := board machine visits
  nextId := 11

def texts : List (String × String × String) :=
  [("intro", "The old machine hums quietly.", "La vieille machine ronronne."),
   ("ask", "Is the switch on?", "L'interrupteur est-il allumé ?"),
   ("flip", "Turn the switch on.", "Allumer l'interrupteur."),
   ("leave", "Walk away.", "S'éloigner."),
   ("flag_on", "A green light is glowing.", "Une lumière verte brille."),
   ("flag_off", "Nothing. The light is dark.", "Rien. La lumière est éteinte."),
   ("flag_set", "Click.", "Clic."),
   ("bye", "You leave the machine behind.", "Vous laissez la machine derrière vous.")]

def strings : StringTables :=
  texts.foldl
    (fun strings (key, english, french) =>
      (strings.insert table "en" key english).insert table "fr" key french)
    .empty

end Dialogue.Demo

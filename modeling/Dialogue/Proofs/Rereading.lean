import Dialogue.Proofs.Records
import Dialogue.Storage.Graph
/-!
Values, conditions, actions and nodes after being written and read again. Reading refuses a value that
has no text, such as infinity; of every other value it keeps all but the object behind a handle and what
the text of a number does not carry.
-/
namespace Dialogue

open Json

namespace Value

def reread : Value → Value
  | real x => real ((real? (ofReal x)).getD 0)
  | handle h => handle (.detached h.key)
  | value => value

def isReadable : Value → Bool
  | real x => (real? (ofReal x)).isSome
  | _ => true

theorem toJson_spelled (value : Value) : Spelled value.toJson := by
  cases value with
  | empty => exact spelled_ofText _
  | text s => exact spelled_tagged _ _ (spelled_ofText s)
  | integer n => exact spelled_tagged _ _ (spelled_ofInt _)
  | real x => exact spelled_tagged _ _ (spelled_ofReal x)
  | boolean b => exact spelled_tagged _ _ (.boolean b)
  | handle h => exact spelled_tagged _ _ (spelled_ofText _)

theorem ofJson_toJson (value : Value) :
    ofJson? value.toJson = if value.isReadable then some value.reread else none := by
  cases value with
  | empty => simp [toJson, ofJson?, tagged_ofText, isBare, isReadable, reread]
  | text s => simp [toJson, ofJson?, tagged_tagged, text_ofText, isReadable, reread]
  | integer n => simp [toJson, ofJson?, tagged_tagged, word_ofInt, isReadable, reread]
  | boolean b => simp [toJson, ofJson?, tagged_tagged, boolean?, isReadable, reread]
  | handle h => simp [toJson, ofJson?, tagged_tagged, text_ofText, isReadable, reread]
  | real x =>
      cases read : real? (ofReal x) <;>
        simp [toJson, ofJson?, tagged_tagged, isReadable, reread, read]

theorem list_ofJson_toJson (values : List Value) :
    list? ofJson? (ofList toJson values) =
      if values.all isReadable then some (values.map reread) else none :=
  list_ofList toJson ofJson? isReadable reread values fun value _ => value.ofJson_toJson

end Value

theorem callToJson_spelled (operation : String) (arguments : List Value) :
    Spelled (callToJson operation arguments) := by
  apply spelled_tagged
  apply spelled_next _ _ _ (spelled_ofText _)
  exact spelled_last _ _ (spelled_ofList _ _ Value.toJson_spelled)

theorem callOfJson_callToJson (operation : String) (arguments : List Value) :
    callOfJson? (record [("operation", ofText operation),
        ("arguments", ofList Value.toJson arguments)]) =
      if arguments.all Value.isReadable then some (operation, arguments.map Value.reread)
      else none := by
  rw [callOfJson?, record_record]
  · change (text? (ofText operation)).bind (fun name =>
      (list? Value.ofJson? (ofList Value.toJson arguments)).bind fun values =>
        some (name, values)) = _
    rw [text_ofText, Value.list_ofJson_toJson]
    cases arguments.all Value.isReadable <;> rfl
  · exact spelled_content _ _ (callToJson_spelled operation arguments)
  · rfl
  · decide

theorem Comparator.ofJson_name (comparator : Comparator) :
    ofJson? (ofText comparator.name) = some comparator := by
  rw [ofJson?, oneOf_ofText]
  cases comparator <;> rfl

theorem Connective.ofJson_name (connective : Connective) :
    ofJson? (ofText connective.name) = some connective := by
  rw [ofJson?, oneOf_ofText]
  cases connective <;> rfl

theorem Mutation.ofJson_name (mutation : Mutation) :
    ofJson? (ofText mutation.name) = some mutation := by
  rw [ofJson?, oneOf_ofText]
  cases mutation <;> rfl

theorem Kind.ofJson_toJson (kind : Kind) : ofJson? kind.toJson = some kind := by
  rw [toJson, ofJson?, oneOf_ofText]
  cases kind <;> rfl

namespace Test

theorem toJson_spelled (test : Test) : Spelled test.toJson := by
  cases test with
  | unset => exact spelled_ofText _
  | compare comparator operand =>
      apply spelled_tagged
      apply spelled_next _ _ _ (spelled_ofText _)
      exact spelled_last _ _ operand.toJson_spelled
  | call operation arguments => exact callToJson_spelled operation arguments

theorem ofJson_toJson (test : Test) :
    ofJson? test.toJson =
      if test.values.all Value.isReadable then some (test.mapValues Value.reread) else none := by
  cases test with
  | unset => simp [toJson, ofJson?, tagged_ofText, isBare, values, mapValues]
  | compare comparator operand =>
      simp only [toJson, ofJson?, tagged_tagged, Option.bind_some]
      rw [record_record]
      · change (Comparator.ofJson? (ofText comparator.name)).bind (fun comparator =>
          (Value.ofJson? operand.toJson).bind fun operand => some (compare comparator operand)) = _
        rw [Comparator.ofJson_name, Value.ofJson_toJson]
        cases readable : operand.isReadable <;> simp [values, mapValues, readable]
      · exact spelled_content _ _ (toJson_spelled (compare comparator operand))
      · rfl
      · decide
  | call operation arguments =>
      simp only [toJson, ofJson?, callToJson, tagged_tagged, Option.bind_some]
      rw [callOfJson_callToJson]
      cases readable : arguments.all Value.isReadable <;> simp [values, mapValues, readable]

end Test

namespace Clause

def isReadable (clause : Clause) : Bool := clause.test.values.all Value.isReadable

def reread (clause : Clause) : Clause := { clause with test := clause.test.mapValues Value.reread }

theorem toJson_spelled (clause : Clause) : Spelled clause.toJson := by
  apply spelled_next _ _ _ (spelled_ofOption _ _ spelled_ofText)
  exact spelled_last _ _ clause.test.toJson_spelled

theorem ofJson_toJson (clause : Clause) :
    ofJson? clause.toJson = if clause.isReadable then some clause.reread else none := by
  rw [ofJson?, toJson, record_record]
  · change (optional? text? (ofOption ofText clause.property)).bind (fun property =>
      (Test.ofJson? clause.test.toJson).bind fun test => some (Clause.mk property test)) = _
    rw [optional_text, Test.ofJson_toJson]
    unfold isReadable reread
    cases clause.test.values.all Value.isReadable <;> rfl
  · exact clause.toJson_spelled
  · rfl
  · decide

end Clause

namespace Condition

theorem toJson_spelled (condition : Condition) : Spelled condition.toJson := by
  apply spelled_next _ _ _ (spelled_ofList _ _ Clause.toJson_spelled)
  exact spelled_last _ _ (spelled_ofText _)

theorem ofJson_toJson (condition : Condition) :
    ofJson? condition.toJson =
      if condition.clauses.all Clause.isReadable then
        some { condition with clauses := condition.clauses.map Clause.reread }
      else none := by
  rw [ofJson?, toJson, record_record]
  · change (list? Clause.ofJson? (ofList Clause.toJson condition.clauses)).bind (fun clauses =>
      (Connective.ofJson? (ofText condition.connective.name)).bind fun connective =>
        some (Condition.mk clauses connective)) = _
    rw [list_ofList _ _ _ _ _ fun clause _ => clause.ofJson_toJson, Connective.ofJson_name]
    cases condition.clauses.all Clause.isReadable <;> rfl
  · exact condition.toJson_spelled
  · rfl
  · decide

end Condition

namespace Command

theorem toJson_spelled (command : Command) : Spelled command.toJson := by
  cases command with
  | unset => exact spelled_ofText _
  | mutate mutation operand =>
      apply spelled_tagged
      apply spelled_next _ _ _ (spelled_ofText _)
      exact spelled_last _ _ operand.toJson_spelled
  | call operation arguments => exact callToJson_spelled operation arguments

theorem ofJson_toJson (command : Command) :
    ofJson? command.toJson =
      if command.values.all Value.isReadable then some (command.mapValues Value.reread)
      else none := by
  cases command with
  | unset => simp [toJson, ofJson?, tagged_ofText, isBare, values, mapValues]
  | mutate mutation operand =>
      simp only [toJson, ofJson?, tagged_tagged, Option.bind_some]
      rw [record_record]
      · change (Mutation.ofJson? (ofText mutation.name)).bind (fun mutation =>
          (Value.ofJson? operand.toJson).bind fun operand => some (mutate mutation operand)) = _
        rw [Mutation.ofJson_name, Value.ofJson_toJson]
        cases readable : operand.isReadable <;> simp [values, mapValues, readable]
      · exact spelled_content _ _ (toJson_spelled (mutate mutation operand))
      · rfl
      · decide
  | call operation arguments =>
      simp only [toJson, ofJson?, callToJson, tagged_tagged, Option.bind_some]
      rw [callOfJson_callToJson]
      cases readable : arguments.all Value.isReadable <;> simp [values, mapValues, readable]

end Command

namespace Effect

def isReadable (effect : Effect) : Bool := effect.command.values.all Value.isReadable

def reread (effect : Effect) : Effect :=
  { effect with command := effect.command.mapValues Value.reread }

theorem toJson_spelled (effect : Effect) : Spelled effect.toJson := by
  apply spelled_next _ _ _ (spelled_ofOption _ _ spelled_ofText)
  exact spelled_last _ _ effect.command.toJson_spelled

theorem ofJson_toJson (effect : Effect) :
    ofJson? effect.toJson = if effect.isReadable then some effect.reread else none := by
  rw [ofJson?, toJson, record_record]
  · change (optional? text? (ofOption ofText effect.property)).bind (fun property =>
      (Command.ofJson? effect.command.toJson).bind fun command =>
        some (Effect.mk property command)) = _
    rw [optional_text, Command.ofJson_toJson]
    unfold isReadable reread
    cases effect.command.values.all Value.isReadable <;> rfl
  · exact effect.toJson_spelled
  · rfl
  · decide

end Effect

namespace Action

theorem toJson_spelled (action : Action) : Spelled action.toJson :=
  spelled_last _ _ (spelled_ofList _ _ Effect.toJson_spelled)

theorem ofJson_toJson (action : Action) :
    ofJson? action.toJson =
      if action.effects.all Effect.isReadable then some ⟨action.effects.map Effect.reread⟩
      else none := by
  rw [ofJson?, toJson, record_record]
  · change (list? Effect.ofJson? (ofList Effect.toJson action.effects)).bind (fun effects =>
      some (Action.mk effects)) = _
    rw [list_ofList _ _ _ _ _ fun effect _ => effect.ofJson_toJson]
    cases action.effects.all Effect.isReadable <;> rfl
  · exact action.toJson_spelled
  · rfl
  · decide

end Action

namespace Line

theorem toJson_spelled (line : Line) : Spelled line.toJson := by
  apply spelled_next _ _ _ (spelled_ofOption _ _ spelled_ofText)
  exact spelled_last _ _ (spelled_ofOption _ _ spelled_ofText)

theorem ofJson_toJson (line : Line) : ofJson? line.toJson = some line := by
  rw [ofJson?, toJson, record_record]
  · change (optional? text? (ofOption ofText line.key)).bind (fun key =>
      (optional? text? (ofOption ofText line.portrait)).bind fun portrait =>
        some (Line.mk key portrait)) = _
    rw [optional_text, optional_text]
    rfl
  · exact line.toJson_spelled
  · rfl
  · decide

end Line

namespace Content

def isReadable (content : Content) : Bool := content.values.all Value.isReadable

theorem answers_spelled (answers : List (Option String)) :
    Spelled (record [("choices", ofList (ofOption ofText) answers)]) :=
  spelled_last _ _ (spelled_ofList _ _ fun answer => spelled_ofOption _ answer spelled_ofText)

theorem toJson_spelled (content : Content) : Spelled content.toJson := by
  cases content with
  | start => exact spelled_ofText _
  | line line => exact spelled_tagged _ _ line.toJson_spelled
  | choice answers => exact spelled_tagged _ _ (answers_spelled answers)
  | condition condition => exact spelled_tagged _ _ condition.toJson_spelled
  | action action => exact spelled_tagged _ _ action.toJson_spelled

theorem choiceOfJson_answers (answers : List (Option String)) :
    choiceOfJson? (record [("choices", ofList (ofOption ofText) answers)]) =
      some (choice answers) := by
  rw [choiceOfJson?, record_record]
  · change (list? (optional? text?) (ofList (ofOption ofText) answers)).bind (fun answers =>
      some (choice answers)) = _
    rw [list_ofList _ _ (fun _ => true) id answers fun answer _ => optional_text answer]
    simp
  · exact answers_spelled answers
  · rfl
  · decide

theorem ofJson_toJson (content : Content) :
    ofJson? content.toJson =
      if content.isReadable then some (content.mapValues Value.reread) else none := by
  cases content with
  | start => simp [toJson, ofJson?, tagged_ofText, isBare, isReadable, values, mapValues]
  | line line =>
      simp [toJson, ofJson?, tagged_tagged, Line.ofJson_toJson, isReadable, values, mapValues]
  | choice answers =>
      simp [toJson, ofJson?, tagged_tagged, choiceOfJson_answers, isReadable, values, mapValues]
  | condition condition =>
      have every : (Content.condition condition).isReadable =
          condition.clauses.all Clause.isReadable := List.all_flatMap
      simp only [toJson, ofJson?, tagged_tagged, Option.bind_some]
      rw [Condition.ofJson_toJson, every]
      cases condition.clauses.all Clause.isReadable <;> rfl
  | action action =>
      have every : (Content.action action).isReadable =
          action.effects.all Effect.isReadable := List.all_flatMap
      simp only [toJson, ofJson?, tagged_tagged, Option.bind_some]
      rw [Action.ofJson_toJson, every]
      cases action.effects.all Effect.isReadable <;> rfl

end Content

namespace Point

def isReadable (point : Point) : Bool :=
  (single? (ofSingle point.x)).isSome && (single? (ofSingle point.y)).isSome

def reread (point : Point) : Point :=
  ⟨(single? (ofSingle point.x)).getD 0, (single? (ofSingle point.y)).getD 0⟩

theorem toJson_spelled (point : Point) : Spelled point.toJson := by
  refine .array _ ?_
  simp only [List.mem_cons, List.not_mem_nil, or_false, forall_eq_or_imp, forall_eq]
  exact ⟨spelled_ofSingle _, spelled_ofSingle _⟩

theorem ofJson_toJson (point : Point) :
    ofJson? point.toJson = if point.isReadable then some point.reread else none := by
  cases readX : single? (ofSingle point.x) <;> cases readY : single? (ofSingle point.y) <;>
    simp [toJson, ofJson?, isReadable, reread, readX, readY]

end Point

namespace Node

def isReadable (node : Node) : Bool := node.position.isReadable && node.content.isReadable

def reread (node : Node) : Node :=
  ⟨node.id, node.position.reread, node.content.mapValues Value.reread⟩

theorem toJson_spelled (node : Node) : Spelled node.toJson := by
  apply spelled_next _ _ _ (spelled_ofNat _)
  apply spelled_next _ _ _ node.position.toJson_spelled
  exact spelled_last _ _ node.content.toJson_spelled

theorem ofJson_toJson (node : Node) :
    ofJson? node.toJson =
      if node.id < idBound ∧ node.isReadable = true then some node.reread else none := by
  rw [ofJson?, toJson, record_record]
  · change (natBelow? idBound (ofNat node.id)).bind (fun id =>
      (Point.ofJson? node.position.toJson).bind fun position =>
        (Content.ofJson? node.content.toJson).bind fun content =>
          some (Node.mk id position content)) = _
    rw [natBelow_ofNat, Point.ofJson_toJson, Content.ofJson_toJson]
    unfold isReadable reread
    by_cases below : node.id < idBound <;> cases node.position.isReadable <;>
      cases node.content.isReadable <;> simp [below]
  · exact node.toJson_spelled
  · rfl
  · decide

end Node

end Dialogue

import Dialogue.Value
/-!
The board: the named, typed variables that conditions test and actions change. A write is converted to
the declared kind of its property, so a property never changes its kind. Where two properties carry one
id, the earlier one is meant.
-/
namespace Dialogue

abbrev PropertyId := String

structure Property where
  id : PropertyId
  name : String
  kind : Kind
  value : Value
deriving DecidableEq

namespace Property

def fresh (id : PropertyId) (name : String) (kind : Kind) : Property :=
  ⟨id, name, kind, kind.initial⟩

def assign (property : Property) (value : Value) : Property :=
  { property with value := value.coerce property.kind }

def agrees (left right : Property) : Bool :=
  left.id == right.id && left.name == right.name && left.kind == right.kind &&
    left.value.agrees right.value

end Property

structure Board where
  properties : List Property
deriving DecidableEq

inductive BoardError where
  | duplicateName (name : String)
  | emptyName
  | unknownProperty (id : PropertyId)
deriving DecidableEq, Repr

def BoardError.message : BoardError → String
  | .duplicateName name => "a property named `" ++ name ++ "` already exists"
  | .emptyName => "property name must not be empty"
  | .unknownProperty id => "unknown property " ++ id

def agreeAll {α : Type} (agree : α → α → Bool) : List α → List α → Bool
  | [], [] => true
  | left :: lefts, right :: rights => agree left right && agreeAll agree lefts rights
  | _, _ => false

namespace Board

def empty : Board := ⟨[]⟩

def size (board : Board) : Nat := board.properties.length

def find? (board : Board) (id : PropertyId) : Option Property :=
  board.properties.find? fun property => property.id == id

def named? (board : Board) (name : String) : Option Property :=
  board.properties.find? fun property => property.name == name

def updateFirst (id : PropertyId) (change : Property → Property) : List Property → List Property
  | [] => []
  | property :: rest =>
      if property.id = id then change property :: rest
      else property :: updateFirst id change rest

def update (board : Board) (id : PropertyId) (change : Property → Property) : Board :=
  ⟨updateFirst id change board.properties⟩

def add (board : Board) (id : PropertyId) (name : String) (kind : Kind) :
    Except BoardError (Property × Board) :=
  if Text.allBlank name then .error .emptyName
  else if (board.named? name).isSome then .error (.duplicateName name)
  else .ok (.fresh id name kind, ⟨board.properties ++ [.fresh id name kind]⟩)

def remove (board : Board) (id : PropertyId) : Option (Property × Board) :=
  (board.find? id).map fun found =>
    (found, ⟨board.properties.eraseP fun property => property.id == id⟩)

/-- A property may be renamed to the name it has. -/
def rename (board : Board) (id : PropertyId) (name : String) : Except BoardError Board :=
  if Text.allBlank name then .error .emptyName
  else match board.find? id with
    | none => .error (.unknownProperty id)
    | some found =>
        if found.name = name then .ok board
        else if (board.named? name).isSome then .error (.duplicateName name)
        else .ok (board.update id fun property => { property with name := name })

def setValue (board : Board) (id : PropertyId) (value : Value) : Except BoardError Board :=
  match board.find? id with
  | none => .error (.unknownProperty id)
  | some _ => .ok (board.update id fun property => property.assign value)

def values (board : Board) : List Value := board.properties.map Property.value

def mapValues (board : Board) (f : Value → Value) : Board :=
  ⟨board.properties.map fun property => { property with value := f property.value }⟩

def agrees (left right : Board) : Bool :=
  agreeAll Property.agrees left.properties right.properties

end Board

end Dialogue

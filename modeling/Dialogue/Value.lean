import Dialogue.Decimal
/-!
Values of properties, operands and arguments. A value has one shape, but it can be read as any kind:
what does not make sense reads as nothing, zero or false. Handles name objects that the host owns: a
handle knows its key, and while it is bound also which object it was made for. Saved handles are only
keys, and come back detached.
-/
namespace Dialogue

/-- The object a handle was made for: which insertion into the host it came from, and its host type. -/
structure Binding where
  object : Nat
  type : String
deriving DecidableEq, Repr

structure Handle where
  key : String
  binding : Option Binding
deriving DecidableEq, Repr

namespace Handle

def detached (key : String) : Handle := ⟨key, none⟩

def isDetached (handle : Handle) : Bool := handle.binding.isNone

def sameObject (left right : Handle) : Bool :=
  match left.binding, right.binding with
  | some a, some b => a.object == b.object
  | _, _ => false

def agrees (left right : Handle) : Bool :=
  match left.binding, right.binding with
  | some a, some b => a.object == b.object
  | none, none => left.key == right.key
  | _, _ => false

end Handle

inductive Kind where
  | text
  | integer
  | real
  | boolean
  | handle
deriving DecidableEq, Repr

inductive Value where
  | empty
  | text (s : String)
  | integer (n : Int64)
  | real (x : Float)
  | boolean (b : Bool)
  | handle (h : Handle)
deriving DecidableEq

namespace Kind

def label : Kind → String
  | text => "string"
  | integer => "int"
  | real => "float"
  | boolean => "bool"
  | handle => "object"

def isNumeric : Kind → Bool
  | integer | real => true
  | _ => false

def initial : Kind → Value
  | text => .text ""
  | integer => .integer 0
  | real => .real 0
  | boolean => .boolean false
  | handle => .empty

end Kind

namespace Value

def kind? : Value → Option Kind
  | empty => none
  | text _ => some .text
  | integer _ => some .integer
  | real _ => some .real
  | boolean _ => some .boolean
  | handle _ => some .handle

def isEmpty (value : Value) : Bool := value.kind?.isNone

def asInteger : Value → Int64
  | integer n => n
  | real x => Real.toWord x
  | text s => ((Whole.signed? (Text.trim s.toList)).bind Whole.word?).getD 0
  | boolean b => if b then 1 else 0
  | empty | handle _ => 0

def asReal : Value → Float
  | integer n => Real.ofWord n
  | real x => x
  | text s => (Real.read? (Text.trim s.toList)).getD 0
  | boolean b => if b then 1 else 0
  | empty | handle _ => 0

def asBoolean : Value → Bool
  | boolean b => b
  | integer n => n != 0
  | real x => x != 0
  | text s => Text.lowered (Text.trim s.toList) = "true".toList
  | empty | handle _ => false

def asText : Value → String
  | text s => s
  | integer n => String.ofList (Whole.write n.toInt)
  | real x => String.ofList (Real.write x)
  | boolean b => if b then "true" else "false"
  | handle h => h.key
  | empty => ""

def asHandle? : Value → Option Handle
  | handle h => some h
  | _ => none

/-- The value as a value of the kind. Only a handle can be read as a handle; all else becomes empty. -/
def coerce (value : Value) : Kind → Value
  | .text => text value.asText
  | .integer => integer value.asInteger
  | .real => real value.asReal
  | .boolean => boolean value.asBoolean
  | .handle => match value.asHandle? with
    | some h => handle h
    | none => empty

theorem coerce_kind (value : Value) (kind : Kind) :
    (value.coerce kind).kind? = some kind ∨ kind = .handle ∧ value.coerce kind = empty := by
  cases kind with
  | handle =>
      cases value with
      | handle h => exact Or.inl rfl
      | _ => exact Or.inr ⟨rfl, rfl⟩
  | _ => exact Or.inl rfl

/-- Equality as programs see it: zero equals minus zero, and no number equals nothing. -/
def agrees : Value → Value → Bool
  | empty, empty => true
  | text s, text t => s == t
  | integer m, integer n => m == n
  | real x, real y => x == y
  | boolean a, boolean b => a == b
  | handle h, handle k => h.agrees k
  | _, _ => false

end Value

end Dialogue

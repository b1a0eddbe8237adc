import Dialogue.Host
/-!
The operations each host type offers. Conditions and actions call them by text: a bare name, a signature
or the full display name. A call is refused before anything runs, or runs one operation on one object.
-/
namespace Dialogue

variable {σ τ : Type}

inductive Returns where
  | nothing
  | value (kind : Kind)
deriving DecidableEq, Repr

def Returns.convert (returns : Returns) (result : Value) : Value :=
  match returns with
  | .nothing => .empty
  | .value kind => result.coerce kind

structure Parameter where
  name : String
  kind : Kind
deriving DecidableEq, Repr

/-- What an operation leaves behind: the object, the messages it gave, and its result. No result means
that the operation broke down half-way. -/
structure Reply (σ : Type) where
  object : σ
  said : List String
  result : Option Value

structure Operation (σ : Type) where
  name : String
  parameters : List Parameter
  returns : Returns
  run : σ → List Value → Reply σ

inductive CallError where
  | operationNotFound (typeName operation : String)
  | arityMismatch (operation : String) (expected found : Nat)
  | detachedHandle (key : String)
  | unknownType (typeName : String)
  | poisoned (key : String)
deriving DecidableEq, Repr

def CallError.message : CallError → String
  | .operationNotFound typeName operation =>
      "`" ++ typeName ++ "` has no operation `" ++ operation ++ "`"
  | .arityMismatch operation expected found =>
      "operation `" ++ operation ++ "` expects " ++ toString expected ++ " argument(s), got " ++
        toString found
  | .detachedHandle key => "handle `" ++ key ++ "` is not bound to a live object"
  | .unknownType typeName => "no operations registered for `" ++ typeName ++ "`"
  | .poisoned key => "object behind handle `" ++ key ++ "` is poisoned"

inductive Outcome (ε α : Type) where
  | done (answer : α)
  | failed (error : ε)
  | crashed
deriving DecidableEq, Repr

namespace Operation

def arity (operation : Operation σ) : Nat := operation.parameters.length

def kinds (operation : Operation σ) : List Kind := operation.parameters.map Parameter.kind

def spell (name : String) (parameters : List String) : String :=
  name ++ "(" ++ ", ".intercalate parameters ++ ")"

def display (operation : Operation σ) : String :=
  spell operation.name (operation.parameters.map fun p => p.kind.label ++ " " ++ p.name)

def signature (operation : Operation σ) : String :=
  spell operation.name (operation.kinds.map Kind.label)

def isSpelled (operation : Operation σ) (text : String) : Bool :=
  Text.packed text = Text.packed operation.display ||
    Text.packed text = Text.packed operation.signature

def accepts (operation : Operation σ) (arguments : List Value) : Bool :=
  operation.kinds.map some = arguments.map Value.kind?

def coerceArguments (operation : Operation σ) (arguments : List Value) : List Value :=
  List.zipWith (fun kind argument => argument.coerce kind) operation.kinds arguments

def on (type : HostType σ τ) (name : String) (parameters : List (String × Kind)) (returns : Returns)
    (run : τ → List Value → Reply τ) : Operation σ where
  name := name
  parameters := parameters.map fun p => ⟨p.1, p.2⟩
  returns := returns
  run object arguments :=
    match type.unpack object with
    | some inner =>
        let reply := run inner arguments
        ⟨type.pack reply.object, reply.said, reply.result⟩
    | none => ⟨object, [], some .empty⟩

end Operation

structure Offer (σ : Type) where
  type : String
  /-- The name authors know the type by. -/
  title : String
  operations : List (Operation σ)

structure Registry (σ : Type) where
  offers : List (Offer σ)

namespace Registry

def empty : Registry σ := ⟨[]⟩

def offer? (registry : Registry σ) (type : String) : Option (Offer σ) :=
  registry.offers.find? fun offer => offer.type == type

def extend (type title : String) (operations : List (Operation σ)) : List (Offer σ) → List (Offer σ)
  | [] => [⟨type, title, operations⟩]
  | offer :: rest =>
      if offer.type = type then ⟨type, title, offer.operations ++ operations⟩ :: rest
      else offer :: extend type title operations rest

def register (registry : Registry σ) (type title : String) (operations : List (Operation σ)) :
    Registry σ :=
  ⟨extend type title operations registry.offers⟩

def returning (returns : Returns) (operations : List (Operation σ)) : List (Operation σ) :=
  operations.filter fun operation => operation.returns = returns

def list (registry : Registry σ) (handle : Handle) (returns : Returns) (maxArity : Nat) :
    List (Operation σ) :=
  match handle.binding.bind fun binding => registry.offer? binding.type with
  | some offer => (returning returns offer.operations).filter fun operation => operation.arity ≤ maxArity
  | none => []

/-- A text with a parenthesis means the first operation spelled so. A bare name means the first
operation that takes the arguments as they stand, else the first with their number, else the first. -/
def select (operations : List (Operation σ)) (text : String) (arity : Nat) (arguments : List Value) :
    Option (Operation σ) :=
  if '(' ∈ text.toList then operations.find? fun operation => operation.isSpelled text
  else
    let named := operations.filter fun operation => operation.name.toList = Text.trim text.toList
    let fitting := named.filter fun operation => operation.arity = arity
    (fitting.find? fun operation => operation.accepts arguments) <|> fitting.head? <|> named.head?

def lookup (registry : Registry σ) (handle : Handle) (text : String) (returns : Returns) (arity : Nat)
    (arguments : List Value) : Except CallError (Operation σ) :=
  match handle.binding with
  | none => .error (.detachedHandle handle.key)
  | some binding =>
      match registry.offer? binding.type with
      | none => .error (.unknownType binding.type)
      | some offer =>
          match select (returning returns offer.operations) text arity arguments with
          | none => .error (.operationNotFound offer.title text)
          | some operation =>
              if operation.arity = arity then .ok operation
              else .error (.arityMismatch operation.display operation.arity arity)

def resolve (registry : Registry σ) (handle : Handle) (text : String) (returns : Returns)
    (arity : Nat) : Except CallError (Operation σ) :=
  registry.lookup handle text returns arity []

def resolveFor (registry : Registry σ) (handle : Handle) (text : String) (returns : Returns)
    (arguments : List Value) : Except CallError (Operation σ) :=
  registry.lookup handle text returns arguments.length arguments

/-- Calls an operation on the handle's object. Arguments and result are converted to the declared kinds.
An operation that breaks down poisons the object. -/
def invoke (registry : Registry σ) (host : Host σ) (handle : Handle) (text : String)
    (returns : Returns) (arguments : List Value) : Host σ × Outcome CallError Value :=
  match registry.resolveFor handle text returns arguments with
  | .error error => (host, .failed error)
  | .ok operation =>
      match host.target? handle with
      | none => (host, .failed (.detachedHandle handle.key))
      | some stored =>
          if stored.poisoned then (host, .failed (.poisoned handle.key))
          else
            let reply := operation.run stored.content (operation.coerceArguments arguments)
            let kept (broken : Bool) : Host σ :=
              { host with
                objects := host.objects.modify handle.key fun stored =>
                  { stored with content := reply.object, poisoned := broken }
                journal := host.journal ++ reply.said }
            match reply.result with
            | some result => (kept false, .done (operation.returns.convert result))
            | none => (kept true, .crashed)

end Registry

end Dialogue

import Dialogue.Keyed
import Dialogue.Value
/-!
The host keeps objects under keys. Every insertion makes a new object, so a handle made for an object
that was replaced or removed stays dead for good: it is alive exactly while its object is the one stored
under its key. `σ` is whatever the host's objects are made of.
-/
namespace Dialogue

variable {σ τ : Type}

/-- A kind of host object: its full name, and how its objects sit among all objects of the host. -/
structure HostType (σ τ : Type) where
  name : String
  pack : τ → σ
  unpack : σ → Option τ

structure Stored (σ : Type) where
  binding : Binding
  content : σ
  /-- Set once an operation broke down inside the object; it is never used again. -/
  poisoned : Bool

structure Host (σ : Type) where
  objects : Keyed String (Stored σ)
  /-- How many objects were ever inserted. -/
  made : Nat
  /-- What operations said while they ran, oldest first. -/
  journal : List String

namespace Host

def empty : Host σ := ⟨.empty, 0, []⟩

def size (host : Host σ) : Nat := host.objects.size

def handle? (host : Host σ) (key : String) : Option Handle :=
  (host.objects.find? key).map fun stored => ⟨key, some stored.binding⟩

def insert (host : Host σ) (type : HostType σ τ) (key : String) (object : τ) : Handle × Host σ :=
  let binding : Binding := ⟨host.made, type.name⟩
  (⟨key, some binding⟩,
    { host with objects := host.objects.insert key ⟨binding, type.pack object, false⟩
                made := host.made + 1 })

def remove (host : Host σ) (key : String) : Host σ :=
  { host with objects := host.objects.erase key }

/-- The object a handle was made for, while it is still the one stored under its key. -/
def target? (host : Host σ) (handle : Handle) : Option (Stored σ) :=
  match handle.binding, host.objects.find? handle.key with
  | some binding, some stored =>
      if stored.binding.object = binding.object then some stored else none
  | _, _ => none

def isAlive (host : Host σ) (handle : Handle) : Bool :=
  (host.target? handle).isSome

def view? (host : Host σ) (type : HostType σ τ) (key : String) : Option τ :=
  (host.objects.find? key).bind fun stored =>
    if stored.poisoned ∨ stored.binding.type ≠ type.name then none else type.unpack stored.content

def canBind (host : Host σ) (handle : Handle) : Bool :=
  handle.isDetached && (host.objects.find? handle.key).isSome

/-- Binds a detached handle to the object now stored under its key. A bound handle stays as it is, even
a dead one. -/
def rebind (host : Host σ) (handle : Handle) : Handle :=
  if handle.isDetached then (host.handle? handle.key).getD handle else handle

def rebindValue (host : Host σ) : Value → Value
  | .handle handle => .handle (host.rebind handle)
  | value => value

def countBindable (host : Host σ) (values : List Value) : Nat :=
  values.countP fun value =>
    match value with
    | .handle handle => host.canBind handle
    | _ => false

end Host

end Dialogue

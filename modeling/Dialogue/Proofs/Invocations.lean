import Dialogue.Registry
/-!
How a call can end. It is refused for one of three reasons, or one operation runs and the host keeps what
the operation leaves.
-/
namespace Dialogue

variable {σ : Type}

def Reply.outcome (returns : Returns) (reply : Reply σ) : Outcome CallError Value :=
  match reply.result with
  | some result => .done (returns.convert result)
  | none => .crashed

/-- The host once an operation left its reply. An object in which one broke down is poisoned. -/
def Host.keep (host : Host σ) (key : String) (reply : Reply σ) : Host σ :=
  { host with
    objects := host.objects.modify key fun stored =>
      { stored with content := reply.object, poisoned := reply.result.isNone }
    journal := host.journal ++ reply.said }

namespace Registry

theorem select_offered (operations : List (Operation σ)) (text : String) (arity : Nat)
    (arguments : List Value) (operation : Operation σ)
    (found : select operations text arity arguments = some operation) : operation ∈ operations := by
  simp only [select, Option.orElse_eq_orElse, Option.orElse_eq_or] at found
  split at found
  · exact List.mem_of_find?_eq_some found
  · rcases Option.or_eq_some_iff.mp found with fits | ⟨_, other⟩
    · have member := List.mem_of_find?_eq_some fits
      exact (List.mem_filter.mp (List.mem_filter.mp member).1).1
    · rcases Option.or_eq_some_iff.mp other with first | ⟨_, first⟩
      · have member := List.mem_of_head? first
        exact (List.mem_filter.mp (List.mem_filter.mp member).1).1
      · exact (List.mem_filter.mp (List.mem_of_head? first)).1

/-- A call that is resolved means an operation of the handle's own type, with the result asked for and
as many parameters as there are arguments. -/
theorem lookup_offered (registry : Registry σ) (handle : Handle) (text : String) (returns : Returns)
    (arity : Nat) (arguments : List Value) (operation : Operation σ)
    (found : registry.lookup handle text returns arity arguments = .ok operation) :
    ∃ binding offer, handle.binding = some binding ∧ registry.offer? binding.type = some offer ∧
      operation ∈ offer.operations ∧ operation.returns = returns ∧ operation.arity = arity := by
  unfold lookup at found
  split at found
  · cases found
  next binding bound =>
    split at found
    · cases found
    next offer offered =>
      split at found
      · cases found
      next selected chosen =>
        split at found
        next fits =>
          cases found
          have member := List.mem_filter.mp (select_offered _ _ _ _ _ chosen)
          exact ⟨binding, offer, bound, offered, member.1, by simpa using member.2, fits⟩
        · cases found

inductive Refuses (registry : Registry σ) (host : Host σ) (handle : Handle) (text : String)
    (returns : Returns) (arguments : List Value) : CallError → Prop where
  | unresolved {error : CallError}
      (failed : registry.resolveFor handle text returns arguments = .error error) :
      Refuses registry host handle text returns arguments error
  | gone {operation : Operation σ}
      (resolved : registry.resolveFor handle text returns arguments = .ok operation)
      (dead : host.target? handle = none) :
      Refuses registry host handle text returns arguments (.detachedHandle handle.key)
  | broken {operation : Operation σ} {stored : Stored σ}
      (resolved : registry.resolveFor handle text returns arguments = .ok operation)
      (alive : host.target? handle = some stored) (poisoned : stored.poisoned = true) :
      Refuses registry host handle text returns arguments (.poisoned handle.key)

inductive Invokes (registry : Registry σ) (host : Host σ) (handle : Handle) (text : String)
    (returns : Returns) (arguments : List Value) : Host σ × Outcome CallError Value → Prop where
  | refused {error : CallError}
      (refuses : registry.Refuses host handle text returns arguments error) :
      Invokes registry host handle text returns arguments (host, .failed error)
  | ran {operation : Operation σ} {stored : Stored σ}
      (resolved : registry.resolveFor handle text returns arguments = .ok operation)
      (alive : host.target? handle = some stored) (sound : stored.poisoned = false) :
      Invokes registry host handle text returns arguments
        (host.keep handle.key
            (operation.run stored.content (operation.coerceArguments arguments)),
          (operation.run stored.content (operation.coerceArguments arguments)).outcome
            operation.returns)

section Endings

variable {registry : Registry σ} {host : Host σ} {handle : Handle} {text : String} {returns : Returns}
  {arguments : List Value}

theorem invoke_refused {error : CallError}
    (refuses : registry.Refuses host handle text returns arguments error) :
    registry.invoke host handle text returns arguments = (host, .failed error) := by
  cases refuses with
  | unresolved failed => simp only [invoke, failed]
  | gone resolved dead => simp only [invoke, resolved, dead]
  | broken resolved alive poisoned => simp only [invoke, resolved, alive, poisoned, if_true]

theorem invoke_ran {operation : Operation σ} {stored : Stored σ}
    (resolved : registry.resolveFor handle text returns arguments = .ok operation)
    (alive : host.target? handle = some stored) (sound : stored.poisoned = false) :
    registry.invoke host handle text returns arguments =
      (host.keep handle.key (operation.run stored.content (operation.coerceArguments arguments)),
        (operation.run stored.content (operation.coerceArguments arguments)).outcome
          operation.returns) := by
  simp only [invoke, resolved, alive, sound]
  rcases operation.run stored.content (operation.coerceArguments arguments) with
    ⟨object, said, _ | result⟩
  · rfl
  · rfl

end Endings

theorem refused_or_runs (registry : Registry σ) (host : Host σ) (handle : Handle) (text : String)
    (returns : Returns) (arguments : List Value) :
    (∃ error, registry.Refuses host handle text returns arguments error) ∨
      ∃ operation stored, registry.resolveFor handle text returns arguments = .ok operation ∧
        host.target? handle = some stored ∧ stored.poisoned = false := by
  cases resolved : registry.resolveFor handle text returns arguments with
  | error error => exact Or.inl ⟨error, .unresolved resolved⟩
  | ok operation =>
      cases alive : host.target? handle with
      | none => exact Or.inl ⟨_, .gone resolved alive⟩
      | some stored =>
          cases sound : stored.poisoned with
          | true => exact Or.inl ⟨_, .broken resolved alive sound⟩
          | false => exact Or.inr ⟨operation, stored, rfl, rfl, sound⟩

theorem invoke_invokes (registry : Registry σ) (host : Host σ) (handle : Handle) (text : String)
    (returns : Returns) (arguments : List Value) :
    registry.Invokes host handle text returns arguments
      (registry.invoke host handle text returns arguments) := by
  rcases registry.refused_or_runs host handle text returns arguments with
    ⟨error, refuses⟩ | ⟨operation, stored, resolved, alive, sound⟩
  · rw [invoke_refused refuses]
    exact .refused refuses
  · rw [invoke_ran resolved alive sound]
    exact .ran resolved alive sound

/-- A call is refused before anything runs. -/
theorem invoke_failed (registry : Registry σ) (host after : Host σ) (handle : Handle)
    (text : String) (returns : Returns) (arguments : List Value) (error : CallError)
    (refused : registry.invoke host handle text returns arguments = (after, .failed error)) :
    after = host := by
  have invokes := registry.invoke_invokes host handle text returns arguments
  rw [refused] at invokes
  generalize ended : Outcome.failed error = outcome at invokes
  cases invokes with
  | refused => rfl
  | @ran operation stored =>
      -- What an operation replies is never a refusal.
      unfold Reply.outcome at ended
      split at ended <;> cases ended

end Registry

end Dialogue
